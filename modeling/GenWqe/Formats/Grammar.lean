import GenWqe.Lib.Words
import GenWqe.Formats.HeaderFields

/-
  The header of RFC 1952 as a language, with the number of
  bytes that a length of the extra field stands for.

  Key definitions include:
    * `gzipHeaders`
    * `EmptyExtra`

  Main results:
    * `gzipHeaders_prefixFree`
    * `mem_gzipHeaders_iff`
    * `ahead_rfc_of_read`
    * `mem_read_iff`
-/

namespace Zedc

open Words

------------------------------------------------------------
-- The Grammar
------------------------------------------------------------

/- ID1, ID2, CM, FLG, MTIME, XFL and OS. -/
def fixedPart (flg : UInt8) : Language UInt8 :=
  {w | ∃ mtime : List UInt8, ∃ xfl os,
    mtime.length = 4 ∧
      w = [0x1f, 0x8b, 0x08, flg] ++ mtime ++ [xfl, os]}

/- XLEN from its two bytes. -/
def xlenOf (lo hi : UInt8) : UInt16 :=
  lo.toUInt16 ||| hi.toUInt16 <<< 8

/- XLEN with the bytes that it stands for. -/
def extraFields
    (count : UInt16 → Nat) : Language UInt8 :=
  {w | ∃ lo hi, ∃ extra : List UInt8,
    extra.length = count (xlenOf lo hi) ∧
      w = lo :: hi :: extra}

/- FEXTRA. -/
def extraPart
    (count : UInt16 → Nat)
    (flg : UInt8) : Language UInt8 :=
  if flg &&& 0x04 ≠ 0 then extraFields count else 1

/- FNAME and FCOMMENT: a string with its zero byte. -/
def stringPart (mask flg : UInt8) : Language UInt8 :=
  if flg &&& mask ≠ 0 then Terminated 0 else 1

/- The check sum of the header. -/
def headerCrcs : Language UInt8 := {w | w.length = 2}

/- FHCRC. -/
def crcPart (flg : UInt8) : Language UInt8 :=
  if flg &&& 0x02 ≠ 0 then headerCrcs else 1

/- What is behind the extra field. -/
def stringParts (flg : UInt8) : Language UInt8 :=
  stringPart 0x08 flg * (stringPart 0x10 flg * crcPart flg)

/- The headers with given flags. -/
def flaggedHeaders
    (count : UInt16 → Nat)
    (flg : UInt8) : Language UInt8 :=
  fixedPart flg * (extraPart count flg * stringParts flg)

/-
  All headers. With `UInt16.toNat` for `count` these are the
  headers of RFC 1952.
-/
def gzipHeaders (count : UInt16 → Nat) : Language UInt8 :=
  {w | ∃ flg, w ∈ flaggedHeaders count flg}

/- The headers of RFC 1952. -/
abbrev rfcHeaders : Language UInt8 := gzipHeaders UInt16.toNat

/- The headers as they are read. -/
abbrev readHeaders : Language UInt8 := gzipHeaders extraCount

section Grammar

variable {count : UInt16 → Nat} {flg : UInt8}

theorem length_fixedPart
    {w : List UInt8}
    (hMem : w ∈ fixedPart flg) :
    w.length = 10 := by
  rcases hMem with ⟨mtime, xfl, os, hLen, rfl⟩
  simp [hLen]

theorem fixedPart_prefixFree (flg : UInt8) :
    PrefixFree (fixedPart flg) :=
  prefixFree_of_length (fun _ hMem => length_fixedPart hMem)

theorem extraPart_prefixFree
    (count : UInt16 → Nat)
    (flg : UInt8) :
    PrefixFree (extraPart count flg) := by
  unfold extraPart
  split
  · rintro u ⟨lo, hi, x, hx, rfl⟩ v ⟨lo', hi', y, hy, rfl⟩
      ⟨t, hEq⟩
    simp only [List.cons_append, List.cons.injEq] at hEq
    rcases hEq with ⟨rfl, rfl, hRest⟩
    have hSame : x = y :=
      List.IsPrefix.eq_of_length ⟨t, hRest⟩ (hx.trans hy.symm)
    rw [hSame]
  · exact prefixFree_one

theorem stringPart_prefixFree (mask flg : UInt8) :
    PrefixFree (stringPart mask flg) := by
  unfold stringPart
  split
  · exact prefixFree_terminated 0
  · exact prefixFree_one

theorem crcPart_prefixFree (flg : UInt8) :
    PrefixFree (crcPart flg) := by
  unfold crcPart
  split
  · exact prefixFree_of_length (fun _ hMem => hMem)
  · exact prefixFree_one

theorem stringParts_prefixFree (flg : UInt8) :
    PrefixFree (stringParts flg) :=
  (stringPart_prefixFree 0x08 flg).mul
    ((stringPart_prefixFree 0x10 flg).mul
      (crcPart_prefixFree flg))

theorem flaggedHeaders_prefixFree
    (count : UInt16 → Nat)
    (flg : UInt8) :
    PrefixFree (flaggedHeaders count flg) :=
  (fixedPart_prefixFree flg).mul
    ((extraPart_prefixFree count flg).mul
      (stringParts_prefixFree flg))

/- The magic bytes and the flags of a header. -/
theorem flaggedHeaders_front
    {w : List UInt8}
    (hMem : w ∈ flaggedHeaders count flg) :
    [0x1f, 0x8b, 0x08, flg] <+: w ∧ 10 ≤ w.length := by
  rcases Language.mem_mul.mp hMem with ⟨u, hu, v, -, rfl⟩
  have hTen := length_fixedPart hu
  rcases hu with ⟨mtime, xfl, os, hLen, rfl⟩
  refine ⟨⟨mtime ++ [xfl, os] ++ v, by simp⟩, ?_⟩
  rw [List.length_append, hTen]
  omega

theorem gzipHeaders_prefixFree (count : UInt16 → Nat) :
    PrefixFree (gzipHeaders count) := by
  rintro u ⟨flg, hu⟩ v ⟨flg', hv⟩ hPrefix
  have hFront := (flaggedHeaders_front hu).1.trans hPrefix
  have hSame := List.IsPrefix.eq_of_length
    (List.prefix_of_prefix_length_le hFront
      (flaggedHeaders_front hv).1 (Nat.le_refl 4)) rfl
  simp only [List.cons.injEq, true_and, and_true] at hSame
  subst hSame
  exact flaggedHeaders_prefixFree count flg u hu v hv hPrefix

------------------------------------------------------------
-- An Empty Extra Field
------------------------------------------------------------

/-
  The bytes begin with a fixed part that announces an extra
  field, and with a length of zero for it.
-/
def EmptyExtra (flg : UInt8) (x : List UInt8) : Prop :=
  flg &&& 0x04 ≠ 0 ∧
    ∃ head ∈ fixedPart flg, head ++ [0, 0] <+: x

/- Strings that end are ended early by more bytes in front. -/
theorem stringParts_eager (flg : UInt8) :
    Eager (stringParts flg) := by
  have hCrc : Eager (crcPart flg) := by
    unfold crcPart
    split
    · exact eager_of_length (fun _ => Iff.rfl)
    · exact eager_one
  have hString : ∀ mask L, Eager L →
      Eager (stringPart mask flg * L) := by
    intro mask L hL
    unfold stringPart
    split
    · exact hL.terminated 0
    · rw [one_mul]
      exact hL
  exact hString 0x08 _ (hString 0x10 _ hCrc)

theorem xlenOf_eq_zero_iff
    {lo hi : UInt8} :
    xlenOf lo hi = 0 ↔ lo = 0 ∧ hi = 0 := by
  constructor
  · intro hZero
    have hBits := congrArg UInt16.toNat hZero
    unfold xlenOf at hBits
    rw [UInt16.toNat_or, UInt16.toNat_zero,
      Nat.or_eq_zero_iff] at hBits
    rcases hBits with ⟨hLo, hHi⟩
    have hLoLt := lo.toNat_lt
    have hHiLt := hi.toNat_lt
    refine ⟨UInt8.toNat_inj.mp ?_, UInt8.toNat_inj.mp ?_⟩
    · simpa using hLo
    · simp [Nat.shiftLeft_eq] at hHi
      simp
      omega
  · rintro ⟨rfl, rfl⟩
    rfl

/- Only zero stands for another number of bytes. -/
theorem extraCount_of_ne
    {n : UInt16}
    (hSome : n ≠ 0) :
    extraCount n = n.toNat :=
  if_neg hSome

/- The words of an extra field that is not empty. -/
theorem extraPart_alike
    {u : List UInt8}
    (hSome : flg &&& 0x04 ≠ 0 → ¬[0, 0] <+: u) :
    u ∈ extraPart UInt16.toNat flg ↔
      u ∈ extraPart extraCount flg := by
  unfold extraPart
  by_cases hFlag : flg &&& 0x04 ≠ 0
  · rw [if_pos hFlag, if_pos hFlag]
    have hCount : ∀ {lo hi : UInt8} {extra : List UInt8},
        u = lo :: hi :: extra →
          extraCount (xlenOf lo hi) =
            (xlenOf lo hi).toNat := by
      rintro lo hi extra rfl
      refine extraCount_of_ne (fun hZero => ?_)
      rcases xlenOf_eq_zero_iff.mp hZero with ⟨rfl, rfl⟩
      exact hSome hFlag ⟨extra, rfl⟩
    constructor
    · rintro ⟨lo, hi, extra, hLen, hEq⟩
      exact ⟨lo, hi, extra, by rw [hCount hEq, hLen], hEq⟩
    · rintro ⟨lo, hi, extra, hLen, hEq⟩
      exact ⟨lo, hi, extra, by rw [← hCount hEq, hLen], hEq⟩
  · rw [if_neg hFlag, if_neg hFlag]

/- A header is read as it is, or its extra field is empty. -/
theorem flaggedHeaders_alike
    {w : List UInt8}
    (hSome : ¬EmptyExtra flg w) :
    w ∈ flaggedHeaders UInt16.toNat flg ↔
      w ∈ flaggedHeaders extraCount flg := by
  have hAlike : ∀ {a b c : List UInt8},
      a ∈ fixedPart flg → a ++ (b ++ c) = w →
        (b ∈ extraPart UInt16.toNat flg ↔
          b ∈ extraPart extraCount flg) := by
    rintro a b c ha rfl
    refine extraPart_alike (fun hFlag hZero => ?_)
    rcases hZero with ⟨t, rfl⟩
    exact hSome ⟨hFlag, a, ha, ⟨t ++ c, by simp⟩⟩
  have hBoth : ∀ count count',
      (∀ {a b c : List UInt8},
        a ∈ fixedPart flg → a ++ (b ++ c) = w →
          b ∈ extraPart count flg →
            b ∈ extraPart count' flg) →
        w ∈ flaggedHeaders count flg →
          w ∈ flaggedHeaders count' flg := by
    intro count count' hPart hMem
    rcases Language.mem_mul.mp hMem with
      ⟨a, ha, r, hr, hEq⟩
    rcases Language.mem_mul.mp hr with ⟨b, hb, c, hc, rfl⟩
    rw [← hEq]
    exact Language.append_mem_mul ha
      (Language.append_mem_mul (hPart ha hEq hb) hc)
  exact ⟨hBoth _ _ fun ha hEq => (hAlike ha hEq).mp,
    hBoth _ _ fun ha hEq => (hAlike ha hEq).mpr⟩

/- The words whose extra field is empty. -/
theorem emptyExtra_split
    {w : List UInt8}
    (hEmpty : EmptyExtra flg w)
    (hMem : w ∈ flaggedHeaders count flg) :
    ∃ a ∈ fixedPart flg, ∃ extra v,
      extra.length = count 0 ∧ v ∈ stringParts flg ∧
        w = a ++ (0 :: 0 :: (extra ++ v)) := by
  rcases hEmpty with ⟨hFlag, a, ha, t, hFront⟩
  rcases Language.mem_mul.mp hMem with ⟨a', ha', r, hr, hEq⟩
  rcases Language.mem_mul.mp hr with ⟨b, hb, c, hc, rfl⟩
  have hSame : a ++ (0 :: 0 :: t) = a' ++ (b ++ c) := by
    rw [hEq, ← hFront]
    simp
  rcases (fixedPart_prefixFree flg).cut ha ha' hSame with
    ⟨rfl, hRest⟩
  unfold extraPart at hb
  rw [if_pos hFlag] at hb
  rcases hb with ⟨lo, hi, extra, hLen, rfl⟩
  simp only [List.cons_append, List.cons.injEq] at hRest
  rcases hRest with ⟨rfl, rfl, -⟩
  refine ⟨a, ha, extra, c, ?_, hc, ?_⟩
  · rw [hLen, xlenOf_eq_zero_iff.mpr ⟨rfl, rfl⟩]
  · rw [← hEq]
    simp

theorem mem_of_emptyExtra
    {a extra v : List UInt8}
    (hFlag : flg &&& 0x04 ≠ 0)
    (ha : a ∈ fixedPart flg)
    (hLen : extra.length = count 0)
    (hv : v ∈ stringParts flg) :
    a ++ (0 :: 0 :: (extra ++ v)) ∈
      flaggedHeaders count flg := by
  refine Language.append_mem_mul ha ?_
  rw [← List.cons_append, ← List.cons_append]
  refine Language.append_mem_mul ?_ hv
  unfold extraPart
  rw [if_pos hFlag]
  exact ⟨0, 0, extra, hLen, rfl⟩

/- What is read as a header has one of RFC 1952 in it. -/
theorem ahead_rfc_of_read
    {w : List UInt8}
    (hMem : w ∈ readHeaders) :
    Ahead rfcHeaders w := by
  rcases hMem with ⟨flg, hMem⟩
  by_cases hEmpty : EmptyExtra flg w
  · rcases emptyExtra_split hEmpty hMem with
      ⟨a, ha, extra, v, -, hv, rfl⟩
    rcases stringParts_eager flg v hv extra with
      ⟨u, hu, t, hEq⟩
    refine ⟨a ++ (0 :: 0 :: ([] ++ u)),
      ⟨flg, mem_of_emptyExtra hEmpty.1 ha rfl hu⟩, t, ?_⟩
    rw [← hEq]
    simp
  · exact ⟨w, ⟨flg, (flaggedHeaders_alike hEmpty).mpr hMem⟩,
      List.prefix_rfl⟩

/-
  A string field is announced, and the first one goes on for
  65536 bytes behind the length of the extra field.
-/
def LongString (flg : UInt8) (w : List UInt8) : Prop :=
  (flg &&& 0x08 ≠ 0 ∨ flg &&& 0x10 ≠ 0) ∧
    (0 : UInt8) ∉ (w.drop 12).take (2 ^ 16)

/- With a string or without one. -/
theorem stringParts_cases (flg : UInt8) :
    ((flg &&& 0x08 ≠ 0 ∨ flg &&& 0x10 ≠ 0) ∧
      ∃ L, Unshifted 0 L ∧
        stringParts flg = Terminated 0 * L) ∨
    (¬(flg &&& 0x08 ≠ 0 ∨ flg &&& 0x10 ≠ 0) ∧
      stringParts flg = crcPart flg) := by
  have hCrc : Unshifted 0 (crcPart flg) := by
    unfold crcPart
    split
    · exact unshifted_of_length (fun _ hMem => hMem)
    · exact unshifted_one 0
  unfold stringParts
  by_cases hName : flg &&& 0x08 ≠ 0
  · refine Or.inl ⟨Or.inl hName,
      stringPart 0x10 flg * crcPart flg, ?_, ?_⟩
    · unfold stringPart
      split
      · exact hCrc.terminated
      · rw [one_mul]
        exact hCrc
    · rw [stringPart, if_pos hName]
  · by_cases hComment : flg &&& 0x10 ≠ 0
    · refine Or.inl ⟨Or.inr hComment, crcPart flg, hCrc, ?_⟩
      rw [stringPart, if_neg hName, one_mul, stringPart,
        if_pos hComment]
    · refine Or.inr ⟨fun h => h.elim hName hComment, ?_⟩
      rw [stringPart, if_neg hName, one_mul, stringPart,
        if_neg hComment, one_mul]

/- A header is read as one unless its extra field is empty. -/
theorem mem_read_iff
    {w : List UInt8}
    (hMem : w ∈ flaggedHeaders UInt16.toNat flg) :
    w ∈ flaggedHeaders extraCount flg ↔
      (EmptyExtra flg w → LongString flg w) := by
  by_cases hEmpty : EmptyExtra flg w
  swap
  · exact iff_of_true
      ((flaggedHeaders_alike hEmpty).mp hMem)
      (fun h => (hEmpty h).elim)
  rcases emptyExtra_split hEmpty hMem with
    ⟨a, ha, none, v, hNone, hv, rfl⟩
  rw [List.length_eq_zero_iff.mp hNone, List.nil_append]
    at hEmpty hMem ⊢
  have hDrop :
      (a ++ (0 :: 0 :: v)).drop 12 = v := by
    have hTen := length_fixedPart ha
    rw [List.drop_append, List.drop_eq_nil_of_le (by omega),
      hTen]
    rfl
  have hSplit :
      a ++ (0 :: 0 :: v) ∈ flaggedHeaders extraCount flg ↔
        ∃ d v', d.length = 2 ^ 16 ∧ v' ∈ stringParts flg ∧
          v = d ++ v' := by
    constructor
    · intro hRead
      rcases emptyExtra_split hEmpty hRead with
        ⟨a', ha', d, v', hLen, hv', hEq⟩
      rcases (fixedPart_prefixFree flg).cut ha ha' hEq with
        ⟨-, hRest⟩
      exact ⟨d, v', hLen, hv', by simpa using hRest⟩
    · rintro ⟨d, v', hLen, hv', rfl⟩
      exact mem_of_emptyExtra hEmpty.1 ha hLen hv'
  rw [hSplit]
  unfold LongString
  rw [hDrop]
  rcases stringParts_cases flg with
    ⟨hFlag, L, hL, hParts⟩ | ⟨hFlag, hParts⟩
  · rw [hParts] at hv
    rw [hParts]
    rcases Language.mem_mul.mp hv with
      ⟨_, ⟨body, hBody, rfl⟩, u, hu, rfl⟩
    constructor
    · rintro ⟨d, v', hLen, hv', hEq⟩ _
      refine ⟨hFlag, fun hZero => ?_⟩
      rw [hEq, ← hLen, List.take_left'] at hZero
      · rcases Language.mem_mul.mp hv' with
          ⟨_, ⟨body', -, rfl⟩, u', hu', rfl⟩
        rcases List.eq_append_cons_of_mem hZero with
          ⟨d₁, d₂, rfl, hFirst⟩
        have hWhole :
            (body ++ [0]) ++ u =
              (d₁ ++ [0]) ++ ((d₂ ++ body') ++ 0 :: u') := by
          rw [hEq]
          simp
        rcases (prefixFree_terminated (0 : UInt8)).cut
          ⟨body, hBody, rfl⟩ ⟨d₁, hFirst, rfl⟩ hWhole with
          ⟨-, hRest⟩
        exact hL u' hu' _ (hRest ▸ hu)
      · rfl
    · intro hLong
      have hNot := (hLong hEmpty).2
      have hLe : 2 ^ 16 ≤ body.length := by
        by_contra hShort
        refine hNot (List.mem_take_iff_getElem.mpr ?_)
        refine ⟨body.length, ?_, ?_⟩
        · simp only [List.length_append, List.length_cons,
            List.length_nil]
          omega
        · simp
      refine ⟨body.take (2 ^ 16),
        (body.drop (2 ^ 16) ++ [0]) ++ u, ?_, ?_, ?_⟩
      · rw [List.length_take]
        omega
      · refine Language.append_mem_mul
          ⟨_, fun hMem => ?_, rfl⟩ hu
        exact hBody (List.mem_of_mem_drop hMem)
      · rw [← List.append_assoc, ← List.append_assoc,
          List.take_append_drop]
  · refine iff_of_false ?_ (fun hLong =>
      hFlag (hLong hEmpty).1)
    rintro ⟨d, v', hLen, -, rfl⟩
    rw [hParts] at hv
    have hShort : ∀ w ∈ crcPart flg, w.length ≤ 2 := by
      unfold crcPart
      intro w hw
      split at hw
      · exact Nat.le_of_eq hw
      · rw [(Language.mem_one w).mp hw]
        exact Nat.zero_le 2
    have hTwo := hShort _ hv
    rw [List.length_append, hLen] at hTwo
    omega

/-
  Where the bytes begin with a header of RFC 1952 that has an
  empty extra field, a long string is behind that field.
-/
def NoEmptyExtra (x : List UInt8) : Prop :=
  ∀ n flg, x.take n ∈ flaggedHeaders UInt16.toNat flg →
    EmptyExtra flg (x.take n) → LongString flg (x.take n)

/- Then headers end where RFC 1952 says. -/
theorem NoEmptyExtra.take_iff
    {x : List UInt8}
    (hNo : NoEmptyExtra x)
    (n : Nat) :
    x.take n ∈ rfcHeaders ↔ x.take n ∈ readHeaders := by
  have hForth : ∀ m, x.take m ∈ rfcHeaders →
      x.take m ∈ readHeaders := by
    rintro m ⟨flg, hMem⟩
    exact ⟨flg, (mem_read_iff hMem).mpr (hNo m flg hMem)⟩
  refine ⟨hForth n, fun hRead => ?_⟩
  rcases ahead_rfc_of_read hRead with ⟨u, hu, hPrefix⟩
  have hTake : u = x.take u.length :=
    List.prefix_iff_eq_take.mp
      (hPrefix.trans (List.take_prefix n x))
  have hSame : u = x.take n := by
    refine gzipHeaders_prefixFree _ u ?_ _ hRead hPrefix
    rw [hTake]
    exact hForth _ (hTake ▸ hu)
  rw [← hSame]
  exact hu

end Grammar

end Zedc
