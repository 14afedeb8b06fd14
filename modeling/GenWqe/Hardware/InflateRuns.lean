import GenWqe.Hardware.Inflate
import GenWqe.Inflate.Accounts
import GenWqe.Lib.Runs

/-
  The calls an application makes on an inflate stream besides
  `h_inflate`, and the states that any sequence of them
  reaches.

  Key definitions include:
    * `hInflateInit2`, `hInflateReset`, `hInflateReset2`
    * `HInflateOp`, `hInflateStep`
    * `Reachable`

  Main results:
    * `hInflateLoop_rule`
    * `Reachable.rule`
    * `StreamRule.reachable`
-/

------------------------------------------------------------
-- Setting Up
------------------------------------------------------------

namespace Hardware

open Zedc

/- `zedc_format_init`; none stands for `ZEDC_DATA_ERROR`. -/
def formatInit (windowBits : Int) : Option Format :=
  if windowBits ≤ -8 ∧ windowBits ≥ -15 then some .defl
  else if windowBits ≥ 8 ∧ windowBits ≤ 15 then some .zlib
  else if windowBits ≥ 16 ∧ windowBits ≤ 23 then some .gzip
  else if windowBits ≥ 24 ∧ windowBits ≤ 31 then some .gzip
  else none

/-
  What flags and environment variables decide: the size of the
  output buffer, and options of the stream.
-/
structure InflateConfig where
  obufTotal : Nat
  flgCrossCheck : Bool
  flgSkipLastDict : Bool
  dmaOutSglist : Bool

/-
  `zedc_inflateInit2` on a stream that is zeroed but for what
  the configuration sets.
-/
def zedcInflateInit2
    (cfg : InflateConfig) (format : Format) : InflStream :=
  inflateInitState
    { InflStream.zeroed format with
      flgCrossCheck := cfg.flgCrossCheck
      flgSkipLastDict := cfg.flgSkipLastDict
      dmaOutSglist := cfg.dmaOutSglist }

/-
  `h_inflateInit2_` on the caller's stream; none stands for a
  stream that is not set up.
-/
def hInflateInit2
    (cfg : InflateConfig)
    (windowBits : Int)
    (z : ZStream) : Option HInflate :=
  match formatInit windowBits with
  | none => none
  | some format =>
    let h := zedcInflateInit2 cfg format
    some
      { strm :=
          fixupInflate { z with totalIn := 0, totalOut := 0 } h
        s :=
          { h := h
            windowBits := windowBits
            rc := .ok
            obuf := Obuf.initial cfg.obufTotal }
        calls := [] }

/- `zedc_inflateReset` and `zedc_inflateReset2` -/
def zedcInflateReset
    (windowBits : Int) (h : InflStream) : Rc × InflStream :=
  match formatInit windowBits with
  | none => (.dataError, inflateInitState h)
  | some format =>
    (.ok, { inflateInitState h with format := format })

/- `h_inflateReset2` -/
def hInflateReset2
    (windowBits : Int) (st : HInflate) : Rc × HInflate :=
  let (rc, h) := zedcInflateReset windowBits st.s.h
  (rc,
    { st with
      strm :=
        fixupInflate
          { st.strm with totalIn := 0, totalOut := 0 } h
      s :=
        { h := h
          windowBits := windowBits
          rc := .ok
          obuf := Obuf.initial st.s.obuf.total } })

/- `h_inflateReset` -/
def hInflateReset (st : HInflate) : Rc × HInflate :=
  hInflateReset2 st.s.windowBits st

------------------------------------------------------------
-- The Dictionary and the Header
------------------------------------------------------------

/- `__adler32` -/
def adler32 (adler : Nat) (buf : List UInt8) : Nat :=
  let (s1, s2) :=
    buf.foldl
      (fun (s1, s2) b =>
        ((s1 + b.toNat) % 65521,
          (s2 + (s1 + b.toNat) % 65521) % 65521))
      (adler % 2 ^ 16, adler / 2 ^ 16 % 2 ^ 16)
  s2 * 2 ^ 16 + s1

/- `zedc_inflateSetDictionary` -/
def zedcInflateSetDictionary
    (dictionary : List UInt8) (h : InflStream) :
    Rc × InflStream :=
  if dictionary.length > zedcDictLen then (.streamError, h)
  else if h.format = .zlib ∧
      adler32 1 dictionary ≠ h.dictAdler32.toNat then
    (.dataError, h)
  else
    (.ok,
      { h with
        dict :=
          { h.dict with
            dict := fun page =>
              if page = false then
                (h.dict.dict false).store 0 dictionary
              else h.dict.dict page
            dictLen := dictionary.length }
        havedict := true
        adler32 := 1 })

/- `h_inflateSetDictionary` -/
def hInflateSetDictionary
    (dictionary : List UInt8) (st : HInflate) :
    Rc × HInflate :=
  let (rc, h) := zedcInflateSetDictionary dictionary st.s.h
  (rc, { st with s := { st.s with h := h } })

/- `h_inflateGetHeader` -/
def hInflateGetHeader
    (head : GzedcHeader) (st : HInflate) : Rc × HInflate :=
  (.ok,
    { st with
      s :=
        { st.s with
          h :=
            { st.s.h with
              prefx :=
                { st.s.h.prefx with
                  gzipHead :=
                    some { head with done := false } } } } })

------------------------------------------------------------
-- Runs
------------------------------------------------------------

/- The arguments of one call of `h_inflate`. -/
structure HInflateCall where
  nextIn : List UInt8
  availOut : Nat
  flush : Flush
  env : Nat → InflateEnv

/- A call on an inflate stream. -/
inductive HInflateOp where
  | inflate (call : HInflateCall)
  | reset
  | reset2 (windowBits : Int)
  | setDictionary (dictionary : List UInt8)
  | getHeader (head : GzedcHeader)

/- The state on which `h_inflate` is called. -/
def HInflateCall.offer
    (call : HInflateCall) (st : HInflate) : HInflate :=
  { st with
    strm := st.strm.offer call.nextIn call.availOut }

/-
  A call, and what it returns and leaves, where it returns
  within `fuel` rounds.
-/
def HInflateOp.run
    (disabled : Bool) (fuel : Nat) (st : HInflate) :
    HInflateOp → Option (Rc × HInflate)
  | .inflate call =>
      hInflate disabled fuel call.flush call.env
        (call.offer st)
  | .reset => some (hInflateReset st)
  | .reset2 windowBits => some (hInflateReset2 windowBits st)
  | .setDictionary dictionary =>
      some (hInflateSetDictionary dictionary st)
  | .getHeader head => some (hInflateGetHeader head st)

/- One call on an inflate stream, which returns. -/
def hInflateStep
    (disabled : Bool)
    (st : HInflate)
    (op : HInflateOp)
    (st' : HInflate) : Prop :=
  ∃ fuel rc, op.run disabled fuel st = some (rc, st')

/- The states that calls reach on a stream set up. -/
def Reachable
    (disabled : Bool)
    (cfg : InflateConfig)
    (st : HInflate) : Prop :=
  ∃ windowBits z st₀ trace,
    hInflateInit2 cfg windowBits z = some st₀ ∧
      Run (hInflateStep disabled) st₀ trace st

/- What a call returns and leaves, where it returns. -/
def HInflateOp.ret
    (disabled : Bool)
    (fuel : Nat)
    (op : HInflateOp)
    (st : HInflate) : Rc × HInflate :=
  (op.run disabled fuel st).getD (.errno, st)

theorem HInflateOp.run_ret
    {disabled : Bool}
    {fuel : Nat}
    {op : HInflateOp}
    {st : HInflate}
    (hSome : (op.run disabled fuel st).isSome) :
    op.run disabled fuel st = some (op.ret disabled fuel st) := by
  rcases Option.isSome_iff_exists.mp hSome with ⟨ret, hRet⟩
  unfold HInflateOp.ret
  rw [hRet]
  rfl

theorem Reachable.init
    {disabled : Bool}
    {cfg : InflateConfig}
    {windowBits : Int}
    {z : ZStream}
    {st : HInflate}
    (hInit : hInflateInit2 cfg windowBits z = some st) :
    Reachable disabled cfg st :=
  ⟨windowBits, z, st, [], hInit, Run.start⟩

theorem Reachable.next
    {disabled : Bool}
    {cfg : InflateConfig}
    {st : HInflate}
    {fuel : Nat}
    {op : HInflateOp}
    (hReach : Reachable disabled cfg st)
    (hSome : (op.run disabled fuel st).isSome) :
    Reachable disabled cfg (op.ret disabled fuel st).2 := by
  rcases hReach with ⟨windowBits, z, st₀, trace, hInit, hRun⟩
  exact ⟨windowBits, z, st₀, trace ++ [op], hInit,
    hRun.next ⟨fuel, _, HInflateOp.run_ret hSome⟩⟩

------------------------------------------------------------
-- From Rounds to Calls
------------------------------------------------------------

/-
  The rule for properties of a call: what holds of the state
  it is made on, is kept by rounds, and gives the result.
-/
theorem hInflateLoop_rule
    {disabled internal : Bool}
    {flush : Flush}
    {fuel : Nat}
    {env : Nat → InflateEnv}
    {st : HInflate}
    {ret : Rc × HInflate}
    (P : HInflate → Prop)
    (Q : Rc × HInflate → Prop)
    (hRound :
      ∀ n st result,
        P st →
          hInflateRound disabled internal flush (env n) st =
            some result →
          match result with
          | .inl ret => Q ret
          | .inr st' => P st')
    (hStart : P st)
    (hLoop :
      hInflateLoop disabled internal flush fuel env st =
        some ret) :
    Q ret := by
  induction fuel generalizing env st with
  | zero => cases hLoop
  | succ fuel ih =>
      unfold hInflateLoop at hLoop
      cases hResult :
          hInflateRound disabled internal flush (env 0) st with
      | none =>
          rw [hResult] at hLoop
          cases hLoop
      | some result =>
          have hNext := hRound 0 st result hStart hResult
          rw [hResult] at hLoop
          cases result with
          | inl ret' =>
              cases hLoop
              exact hNext
          | inr st' =>
              exact ih
                (fun n st result hP hEq =>
                  hRound (n + 1) st result hP hEq)
                hNext hLoop

/-
  The rule for reachable states: what every way to set up a
  stream gives, the small calls keep, and `h_inflate` keeps.
-/
theorem Reachable.rule
    {disabled : Bool}
    {cfg : InflateConfig}
    {st : HInflate}
    (P : HInflate → Prop)
    (hInit :
      ∀ windowBits z st,
        hInflateInit2 cfg windowBits z = some st → P st)
    (hReset :
      ∀ windowBits st,
        P st → P (hInflateReset2 windowBits st).2)
    (hDictionary :
      ∀ dictionary st,
        P st → P (hInflateSetDictionary dictionary st).2)
    (hHeader :
      ∀ head st, P st → P (hInflateGetHeader head st).2)
    (hInflate :
      ∀ (call : HInflateCall) fuel st ret,
        P st →
          Hardware.hInflate disabled fuel call.flush call.env
              (call.offer st) = some ret →
            P ret.2)
    (hReach : Reachable disabled cfg st) :
    P st := by
  rcases hReach with ⟨windowBits, z, st₀, trace, hSet, hRun⟩
  refine hRun.preserves P (hInit windowBits z st₀ hSet) ?_
  rintro st op st' hP ⟨fuel, rc, hOp⟩
  cases op with
  | inflate call => exact hInflate call fuel st _ hP hOp
  | reset =>
      cases hOp
      exact hReset _ st hP
  | reset2 windowBits =>
      cases hOp
      exact hReset windowBits st hP
  | setDictionary dictionary =>
      cases hOp
      exact hDictionary dictionary st hP
  | getHeader head =>
      cases hOp
      exact hHeader head st hP

------------------------------------------------------------
-- From Calls of the Stream to Reachable States
------------------------------------------------------------

/-
  What the code around the stream of `zedc_inflate` does to it
  keeps a property.
-/
structure StreamRule
    (I : InflStream → Prop) : Prop where
  offer :
    ∀ h nextIn totalIn availOut totalOut,
      I h →
        I { h with
          nextIn := nextIn
          totalIn := totalIn
          availOut := availOut
          totalOut := totalOut }
  call :
    ∀ flush env h ret,
      I h → zedcInflate flush env h = some ret → I ret.strm
  drain :
    ∀ len h bs h',
      I h →
        zedcReadPendingOutput len h = some (bs, h') → I h'
  reset : ∀ h, I h → I (resetHdrScratchLen h)

section StreamRule

variable {I : InflStream → Prop}
variable {disabled internal : Bool}
variable {flush : Flush} {st : HInflate}

/- The stream that a round leaves. -/
def roundStream
    (result : Sum (Rc × HInflate) HInflate) : InflStream :=
  match result with
  | .inl (_, st) => st.s.h
  | .inr st => st.s.h

theorem StreamRule.start
    (hRule : StreamRule I)
    (flush : Flush)
    (hI : I st.s.h) :
    I (roundStream (hInflateStart flush st)) := by
  have hFlushed : I (hInflateFlushObuf st).s.h := hI
  unfold hInflateStart
  generalize hInflateFlushObuf st = st₁ at hFlushed ⊢
  simp only
  split
  · unfold hInflateDrain
    cases hRead :
        zedcReadPendingOutput st₁.strm.availOut st₁.s.h with
    | none => exact hFlushed
    | some drained =>
        rcases drained with ⟨bs, h⟩
        exact hRule.drain _ _ bs h hFlushed hRead
  · split
    · exact hFlushed
    · split
      · exact hFlushed
      · split <;> exact hFlushed

theorem StreamRule.sent
    {env : InflateEnv}
    {st' : HInflate}
    (hRule : StreamRule I)
    (hI : I st.s.h)
    (hSent : hInflateSent internal flush env st = some st') :
    I st'.s.h := by
  rcases hInflateSent_some hSent with ⟨ret, hCall, _, hH, _⟩
  rw [hH]
  exact hRule.call flush env _ ret
    (hRule.offer _ _ _ _ _ hI) hCall

theorem StreamRule.checkEnd
    {st' : HInflate}
    (hRule : StreamRule I)
    (hI : I st.s.h)
    (hCheck : hInflateCheckEnd disabled st = some st') :
    I st'.s.h := by
  unfold hInflateCheckEnd at hCheck
  split at hCheck
  · rcases checkStreamEnd_checked disabled st.s.h st.strm with
      ⟨result, hResult, hChecked⟩
    rw [hResult] at hCheck
    cases hChecked with
    | home =>
        cases hCheck
        exact hI
    | found _ _ _ _ =>
        cases hCheck
        simp only
        split
        · exact hI
        · exact hRule.reset _ hI
  · cases hCheck
    exact hI

theorem StreamRule.round
    {env : InflateEnv}
    {result : Sum (Rc × HInflate) HInflate}
    (hRule : StreamRule I)
    (hI : I st.s.h)
    (hRound :
      hInflateRound disabled internal flush env st =
        some result) :
    I (roundStream result) := by
  have hStart := hRule.start flush hI
  unfold hInflateRound at hRound
  generalize hInflateStart flush st = start
    at hStart hRound
  cases start with
  | inl ret =>
      cases hRound
      exact hStart
  | inr st₁ =>
      simp only at hRound
      cases hSent : hInflateSent internal flush env st₁ with
      | none =>
          rw [hSent] at hRound
          cases hRound
      | some st₂ =>
          rw [hSent] at hRound
          have hSentI : I st₂.s.h := hRule.sent hStart hSent
          have hI₂ : I (hInflateFlushObuf st₂).s.h := hSentI
          simp only at hRound
          unfold hInflateResult at hRound
          simp only at hRound
          generalize hInflateFlushObuf st₂ = st₃
            at hI₂ hRound
          split at hRound
          · cases hRound
            exact hI₂
          · rcases Option.map_eq_some_iff.mp hRound with
              ⟨st₄, hCheck, rfl⟩
            have hI₄ := hRule.checkEnd hI₂ hCheck
            unfold hInflateRoundEnd
            split_ifs <;> exact hI₄

/- A call of `h_inflate` keeps the property. -/
theorem StreamRule.hInflate
    {fuel : Nat}
    {env : Nat → InflateEnv}
    {ret : Rc × HInflate}
    (hRule : StreamRule I)
    (hI : I st.s.h)
    (hCall :
      Hardware.hInflate disabled fuel flush env st =
        some ret) :
    I ret.2.s.h := by
  unfold Hardware.hInflate at hCall
  split at hCall
  · unfold hInflateDirect hInflateCall at hCall
    simp only at hCall
    cases hSent :
        zedcInflate flush (env 0)
          (hInflateOffer false st) with
    | none =>
        rw [hSent] at hCall
        cases hCall
    | some ret' =>
        rw [hSent] at hCall
        cases hCall
        exact hRule.call flush (env 0) _ ret'
          (hRule.offer _ _ _ _ _ hI) hSent
  · split at hCall
    · cases hCall
      exact hI
    · refine hInflateLoop_rule (fun st => I st.s.h)
        (fun ret => I ret.2.s.h) ?_ hI hCall
      intro n st₁ result hI₁ hRound
      have hNext := hRule.round hI₁ hRound
      cases result with
      | inl ret => exact hNext
      | inr st₂ => exact hNext

/-
  A property that holds of streams that are set up or reset,
  and that a dictionary and a header leave alone, holds of
  every reachable state.
-/
theorem StreamRule.reachable
    {cfg : InflateConfig}
    (hRule : StreamRule I)
    (hInit :
      ∀ h format, I { inflateInitState h with format := format })
    (hDictionary :
      ∀ dictionary h,
        I h → I (zedcInflateSetDictionary dictionary h).2)
    (hHeader :
      ∀ head h,
        I h →
          I { h with
            prefx := { h.prefx with gzipHead := head } })
    (hReach : Reachable disabled cfg st) :
    I st.s.h := by
  refine hReach.rule (fun st => I st.s.h) ?_ ?_ ?_ ?_ ?_
  · intro windowBits z st hSet
    unfold hInflateInit2 at hSet
    split at hSet
    · cases hSet
    · rename_i format _
      cases hSet
      exact hInit
        { InflStream.zeroed format with
          flgCrossCheck := cfg.flgCrossCheck
          flgSkipLastDict := cfg.flgSkipLastDict
          dmaOutSglist := cfg.dmaOutSglist } format
  · intro windowBits st _
    change I (zedcInflateReset windowBits st.s.h).2
    unfold zedcInflateReset
    split
    · exact hInit st.s.h st.s.h.format
    · exact hInit st.s.h _
  · intro dictionary st hI
    exact hDictionary dictionary st.s.h hI
  · intro head st hI
    exact hHeader _ st.s.h hI
  · intro call fuel st ret hI hCall
    have hOffer : I (call.offer st).s.h := hI
    exact hRule.hInflate hOffer hCall

end StreamRule

------------------------------------------------------------
-- A Raw Stream
------------------------------------------------------------

/- An internal buffer of one byte, and no options. -/
def plainConfig : InflateConfig where
  obufTotal := 1
  flgCrossCheck := false
  flgSkipLastDict := false
  dmaOutSglist := true

/- A raw stream that was just set up. -/
def rawInflate : HInflate :=
  (hInflateInit2 plainConfig (-15) ZStream.initial).getD
    { strm := ZStream.initial
      s := ⟨InflStream.zeroed .defl, 0, .ok, Obuf.initial 0⟩
      calls := [] }

theorem reachable_rawInflate {disabled : Bool} :
    Reachable disabled plainConfig rawInflate := by
  have hInit :
      hInflateInit2 plainConfig (-15) ZStream.initial =
        some rawInflate := rfl
  exact Reachable.init hInit

end Hardware
