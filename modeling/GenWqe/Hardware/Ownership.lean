import GenWqe.Hardware.Resources

/-
  Who owns what the streams of the hardware library hold:
  whatever cannot be had, a call leaves everything with one
  stream or with the table of handles, except for what an
  abandoned copy leaves behind.

  Key definitions include:
    * `ZedcDev.held`, `HwStream.held`
    * `StreamOk`, `CardsOk`
    * `Abandons`

  Main results:
    * `clean_hDeflateInit2`, `clean_hInflateInit2`
    * `spec_hDeflateCopy`
    * `clean_hDeflateEnd`, `clean_hInflateEnd`
-/

------------------------------------------------------------
-- What Is Held
------------------------------------------------------------

namespace Lifecycle

open Zedc Ledger

/- What an opened card holds. -/
def Card.held (card : Card) : Held :=
  {(card.data, .card)} + {(card.self, .heap)}

/- What a handle holds. -/
def ZedcDev.held (zedc : ZedcDev) : Held :=
  {(zedc.self, .heap)} + zedc.card.held

/- What there may be, and holds something then. -/
def heldBy {α : Type} (f : α → Held) : Option α → Held
  | none => 0
  | some a => f a

@[simp] theorem heldBy_none {α : Type} (f : α → Held) :
    heldBy f none = 0 := rfl

@[simp] theorem heldBy_some
    {α : Type} (f : α → Held) (a : α) :
    heldBy f (some a) = f a := rfl

/- The kind of the memory that `zedc_memalign` returns. -/
def memKind (card : Card) (flat : Bool) (size : Nat) : Kind :=
  if flat then
    match card.cardType with
    | .genwqe => .driver size
    | .capi => .heap
  else .heap

/- A buffer, where there is one. -/
def memHeld
    (card : Card) (flat : Bool) (size : Nat) :
    Option Nat → Held :=
  heldBy (fun ptr => {(ptr, memKind card flat size)})

/- Memory that the card can be asked for. -/
def CanMap (card : Card) (flat : Bool) : Prop :=
  flat = true → card.cardType = .genwqe →
    card.cardNo ≠ accelRedundant

------------------------------------------------------------
-- Handles and Memory
------------------------------------------------------------

section Memory

variable {cfg : HwConfig} {env : OpenEnv} {own : Held}
variable {cardNo : Int} {cardType : CardType}
variable {card : Card} {zedc : ZedcDev}
variable {size : Nat} {flat ok : Bool} {ptr : Option Nat}

theorem clean_accelOpen :
    Clean own (accelOpen cfg env cardNo cardType)
      (fun card own' =>
        own' = heldBy Card.held card + own ∧
          (card.isSome ↔
            env.card = true ∧ cardType ∈ cfg.registered ∧
              env.opened = true) ∧
          ∀ c, card = some c →
            c.cardNo = cardNo ∧ c.cardType = cardType) := by
  unfold accelOpen
  by_cases hCard : env.card = true
  · rw [if_pos hCard]
    refine (clean_acquire _ _).bind ?_
    rintro self _ rfl
    by_cases hOpened :
        cardType ∈ cfg.registered ∧ env.opened = true
    · rw [if_pos hOpened]
      refine (clean_acquire _ _).bind ?_
      rintro data _ rfl
      refine Clean.pure ⟨?_, ?_, ?_⟩
      · rw [heldBy_some, Card.held, add_assoc]
      · exact iff_of_true rfl ⟨hCard, hOpened⟩
      · rintro c hC
        cases hC
        exact ⟨rfl, rfl⟩
    · rw [if_neg hOpened]
      refine (clean_release _ _ _).bind ?_
      rintro _ _ rfl
      refine Clean.pure ⟨(zero_add _).symm, ?_, ?_⟩
      · exact iff_of_false (fun h => by cases h)
          (fun h => hOpened h.2)
      · rintro c hC
        cases hC
  · rw [if_neg hCard]
    refine Clean.pure ⟨(zero_add _).symm, ?_, ?_⟩
    · exact iff_of_false (fun h => by cases h)
        (fun h => hCard h.1)
    · rintro c hC
      cases hC

/- What opening a handle takes. -/
structure Opens
    (cfg : HwConfig) (env : OpenEnv) (cardType : CardType) :
    Prop where
  zedc : env.zedc = true
  card : env.card = true
  registered : cardType ∈ cfg.registered
  opened : env.opened = true

theorem clean_zedcOpen :
    Clean own (zedcOpen cfg env cardNo cardType)
      (fun zedc own' =>
        own' = heldBy ZedcDev.held zedc + own ∧
          (zedc.isSome ↔ Opens cfg env cardType) ∧
          ∀ z, zedc = some z →
            z.card.cardNo = cardNo ∧
              z.card.cardType = cardType) := by
  unfold zedcOpen
  by_cases hZedc : env.zedc = true
  · rw [if_pos hZedc]
    refine (clean_acquire _ _).bind ?_
    rintro self _ rfl
    refine clean_accelOpen.bind ?_
    rintro card _ ⟨rfl, hSome, hCard⟩
    cases card with
    | none =>
        rw [heldBy_none, zero_add]
        refine (clean_release _ _ _).bind ?_
        rintro _ _ rfl
        refine Clean.pure ⟨(zero_add _).symm, ?_, ?_⟩
        · refine iff_of_false (fun h => by cases h)
            (fun hOpens => ?_)
          have hNone := hSome.mpr
            ⟨hOpens.card, hOpens.registered, hOpens.opened⟩
          cases hNone
        · rintro z hZ
          cases hZ
    | some card =>
        refine Clean.pure ⟨?_, ?_, ?_⟩
        · rw [heldBy_some, heldBy_some, ZedcDev.held]
          abel
        · rcases hSome.mp rfl with ⟨hC, hReg, hOpened⟩
          exact iff_of_true rfl ⟨hZedc, hC, hReg, hOpened⟩
        · rintro z hZ
          cases hZ
          exact hCard card rfl
  · rw [if_neg hZedc]
    refine Clean.pure ⟨(zero_add _).symm, ?_, ?_⟩
    · exact iff_of_false (fun h => by cases h)
        (fun hOpens => hZedc hOpens.zedc)
    · rintro z hZ
      cases hZ

theorem clean_zedcClose :
    Clean (zedc.held + own) (zedcClose zedc)
      (fun _ own' => own' = own) := by
  have hHeld :
      zedc.held + own =
        {(zedc.card.data, .card)} +
          ({(zedc.card.self, .heap)} +
            ({(zedc.self, .heap)} + own)) := by
    unfold ZedcDev.held Card.held
    abel
  rw [hHeld]
  unfold zedcClose accelClose
  refine (clean_use (k := .heap) (by simp)).bind ?_
  rintro _ _ rfl
  refine Clean.bind (P := fun _ own' =>
    own' = {(zedc.self, .heap)} + own) ?_ ?_
  · refine (clean_use (k := .heap) (by simp)).bind ?_
    rintro _ _ rfl
    refine (clean_release _ _ _).bind ?_
    rintro _ _ rfl
    exact clean_release _ _ _
  · rintro _ _ rfl
    exact clean_release _ _ _

theorem clean_accelMalloc
    (hSelf : (card.self, Kind.heap) ∈ own)
    (hData : (card.data, Kind.card) ∈ own) :
    Clean own (accelMalloc card size ok)
      (fun ptr own' =>
        own' = memHeld card true size ptr + own ∧
          (ptr.isSome ↔ ok = true ∧ CanMap card true)) := by
  unfold accelMalloc
  refine (clean_use hSelf).bind ?_
  rintro _ _ rfl
  cases hType : card.cardType with
  | genwqe =>
      refine (clean_use hData).bind ?_
      rintro _ _ rfl
      by_cases hMap :
          card.cardNo ≠ accelRedundant ∧ ok = true
      · rw [if_pos hMap]
        refine (clean_acquire _ _).bind ?_
        rintro ptr _ rfl
        refine Clean.pure ⟨?_, iff_of_true rfl
          ⟨hMap.2, fun _ _ => hMap.1⟩⟩
        unfold memHeld memKind
        rw [hType]
        rfl
      · rw [if_neg hMap]
        refine Clean.pure ⟨(zero_add _).symm,
          iff_of_false (fun h => by cases h) ?_⟩
        rintro ⟨hOk, hCan⟩
        exact hMap ⟨hCan rfl hType, hOk⟩
  | capi =>
      have hCan : CanMap card true := by
        intro _ hIs
        rw [hType] at hIs
        cases hIs
      simp only
      by_cases hOk : ok = true
      · rw [if_pos hOk]
        refine (clean_acquire _ _).bind ?_
        rintro ptr _ rfl
        refine Clean.pure ⟨?_, iff_of_true rfl ⟨hOk, hCan⟩⟩
        unfold memHeld memKind
        rw [hType]
        rfl
      · rw [if_neg hOk]
        exact Clean.pure ⟨(zero_add _).symm,
          iff_of_false (fun h => by cases h)
            (fun h => hOk h.1)⟩

theorem clean_accelFree
    {p : Nat}
    (hSelf : (card.self, Kind.heap) ∈ own)
    (hData : (card.data, Kind.card) ∈ own)
    (hCan : CanMap card true) :
    Clean ({(p, memKind card true size)} + own)
      (accelFree card p size) (fun _ own' => own' = own) := by
  unfold accelFree
  refine (clean_use
    (Multiset.mem_add.mpr (Or.inr hSelf))).bind ?_
  rintro _ _ rfl
  cases hType : card.cardType with
  | genwqe =>
      have hKind : memKind card true size = .driver size := by
        unfold memKind
        rw [hType]
        rfl
      refine (clean_use
        (Multiset.mem_add.mpr (Or.inr hData))).bind ?_
      rintro _ _ rfl
      rw [if_pos (hCan rfl hType), hKind]
      exact clean_release _ _ _
  | capi =>
      have hKind : memKind card true size = .heap := by
        unfold memKind
        rw [hType]
        rfl
      rw [hKind]
      exact clean_release _ _ _

/- A handle that is held can be used. -/
theorem ZedcDev.mem_held
    (hHeld : zedc.held ≤ own) :
    (zedc.self, Kind.heap) ∈ own ∧
      (zedc.card.self, Kind.heap) ∈ own ∧
      (zedc.card.data, Kind.card) ∈ own := by
  unfold ZedcDev.held Card.held at hHeld
  refine ⟨?_, ?_, ?_⟩ <;>
    exact Multiset.mem_of_le hHeld (by simp)

theorem clean_zedcMemalign (hHeld : zedc.held ≤ own) :
    Clean own (zedcMemalign zedc size flat ok)
      (fun ptr own' =>
        own' = memHeld zedc.card flat size ptr + own ∧
          (ptr.isSome ↔
            ok = true ∧ CanMap zedc.card flat)) := by
  rcases ZedcDev.mem_held hHeld with ⟨hZedc, hCard, hData⟩
  unfold zedcMemalign
  cases flat with
  | true =>
      rw [if_pos rfl]
      refine (clean_use hZedc).bind ?_
      rintro _ _ rfl
      exact clean_accelMalloc hCard hData
  | false =>
      have hCan : CanMap zedc.card false :=
        fun hFlat => by cases hFlat
      rw [if_neg Bool.false_ne_true]
      by_cases hOk : ok = true
      · rw [if_pos hOk]
        refine (clean_acquire _ _).bind ?_
        rintro ptr _ rfl
        exact Clean.pure ⟨rfl, iff_of_true rfl ⟨hOk, hCan⟩⟩
      · rw [if_neg hOk]
        exact Clean.pure ⟨(zero_add _).symm,
          iff_of_false (fun h => by cases h)
            (fun h => hOk h.1)⟩

theorem clean_zedcFree
    (hHeld : zedc.held ≤ own)
    (hCan : ptr.isSome → CanMap zedc.card flat) :
    Clean (memHeld zedc.card flat size ptr + own)
      (zedcFree zedc ptr size flat)
      (fun _ own' => own' = own) := by
  rcases ZedcDev.mem_held hHeld with ⟨hZedc, hCard, hData⟩
  unfold zedcFree
  cases ptr with
  | none => exact Clean.pure (zero_add _)
  | some p =>
      cases flat with
      | true =>
          simp only [if_true]
          refine (clean_use
            (Multiset.mem_add.mpr (Or.inr hZedc))).bind ?_
          rintro _ _ rfl
          exact clean_accelFree hCard hData (hCan rfl)
      | false =>
          simp only [Bool.false_eq_true, if_false]
          exact clean_release _ _ _

end Memory

------------------------------------------------------------
-- The Table of Handles
------------------------------------------------------------

/- What the handles in the table hold. -/
def cardsHeld (cards : Cards) : Held :=
  ∑ i, heldBy ZedcDev.held (cards i)

/-
  Only where handles are kept are there any, each in the place
  of its card.
-/
structure CardsOk (cfg : HwConfig) (cards : Cards) : Prop where
  none : cfg.cacheHandles = false → ∀ i, cards i = none
  place :
    ∀ i zedc, cards i = some zedc →
      slot zedc.card.cardNo = some i

/- A handle for a card, kept in the table or not. -/
structure HandleFor
    (cfg : HwConfig)
    (cards : Cards)
    (cardNo : Int)
    (cardType : CardType)
    (zedc : ZedcDev) : Prop where
  cached :
    cfg.cacheHandles = true →
      ∃ i, slot cardNo = some i ∧ cards i = some zedc
  own :
    cfg.cacheHandles = false →
      zedc.card.cardNo = cardNo ∧
        zedc.card.cardType = cardType

/- What of a handle belongs to its stream. -/
def ownHandle (cfg : HwConfig) (zedc : ZedcDev) : Held :=
  if cfg.cacheHandles then 0 else zedc.held

theorem slot_injective
    {m n : Int} {i : Fin 129}
    (hM : slot m = some i)
    (hN : slot n = some i) : m = n := by
  unfold slot at hM hN
  unfold accelRedundant at hM hN
  split at hM <;> split at hN
  · omega
  · split at hN
    · have hSame := (Option.some.inj hN).trans
        (Option.some.inj hM).symm
      have hVal := congrArg Fin.val hSame
      simp at hVal
      omega
    · cases hN
  · split at hM
    · have hSame := (Option.some.inj hM).trans
        (Option.some.inj hN).symm
      have hVal := congrArg Fin.val hSame
      simp at hVal
      omega
    · cases hM
  · split at hM
    · split at hN
      · have hSame := (Option.some.inj hM).trans
          (Option.some.inj hN).symm
        have hVal := congrArg Fin.val hSame
        simp at hVal
        omega
      · cases hN
    · cases hM

section Table

variable {cfg : HwConfig} {env : OpenEnv} {own : Held}
variable {cards : Cards} {cardNo : Int} {cardType : CardType}
variable {zedc : ZedcDev}

/- A new handle in an empty place. -/
theorem cardsHeld_update
    {i : Fin 129}
    (hNone : cards i = none)
    (zedc : Option ZedcDev) :
    cardsHeld (Function.update cards i zedc) =
      heldBy ZedcDev.held zedc + cardsHeld cards := by
  unfold cardsHeld
  rw [Fintype.sum_eq_add_sum_compl i,
    Fintype.sum_eq_add_sum_compl i
      (fun j => heldBy ZedcDev.held (cards j)),
    Function.update_self, hNone, heldBy_none, zero_add]
  congr 1
  apply Finset.sum_congr rfl
  intro j hJ
  rw [Function.update_of_ne (by simpa using hJ)]

/- The card of a handle that is for it. -/
theorem HandleFor.sameCard
    (hFor : HandleFor cfg cards cardNo cardType zedc)
    (hCards : CardsOk cfg cards) :
    zedc.card.cardNo = cardNo := by
  cases hCache : cfg.cacheHandles with
  | false => exact (hFor.own hCache).1
  | true =>
      rcases hFor.cached hCache with ⟨i, hSlot, hHere⟩
      exact slot_injective (hCards.place i _ hHere) hSlot

/- Two handles for one card are the same, or of one type. -/
theorem HandleFor.sameType
    {zedc' : ZedcDev}
    (hFor : HandleFor cfg cards cardNo cardType zedc)
    (hFor' : HandleFor cfg cards cardNo cardType zedc') :
    zedc'.card.cardType = zedc.card.cardType := by
  cases hCache : cfg.cacheHandles with
  | false =>
      rw [(hFor.own hCache).2, (hFor'.own hCache).2]
  | true =>
      rcases hFor.cached hCache with ⟨i, hSlot, hHere⟩
      rcases hFor'.cached hCache with ⟨j, hSlot', hHere'⟩
      rw [hSlot] at hSlot'
      cases hSlot'
      rw [hHere] at hHere'
      cases hHere'
      rfl

/- What a call of `__zedc_open` has come to. -/
structure HwOpened
    (cfg : HwConfig)
    (cards : Cards)
    (cardNo : Int)
    (cardType : CardType)
    (zedc : Option ZedcDev)
    (cards' : Cards) : Prop where
  ok : CardsOk cfg cards'
  kept :
    ∀ i z, cards i = some z → cards' i = some z
  handle :
    ∀ z, zedc = some z →
      HandleFor cfg cards' cardNo cardType z

theorem clean_hwOpen (hCards : CardsOk cfg cards) :
    Clean (cardsHeld cards + own)
      (hwOpen cfg cards env cardNo cardType)
      (fun ret own' =>
        own' =
            heldBy (ownHandle cfg) ret.1 +
              (cardsHeld ret.2 + own) ∧
          HwOpened cfg cards cardNo cardType ret.1 ret.2 ∧
          (cfg.cacheHandles = false →
            (ret.1.isSome ↔ Opens cfg env cardType)) ∧
          (cfg.cacheHandles = true →
            (∃ i z, slot cardNo = some i ∧
              cards i = some z) →
                ret.1.isSome)) := by
  unfold hwOpen
  cases hCache : cfg.cacheHandles with
  | false =>
      rw [if_neg Bool.false_ne_true]
      refine clean_zedcOpen.bind ?_
      rintro zedc _ ⟨rfl, hSome, hCard⟩
      refine Clean.pure ⟨?_, ⟨hCards, fun _ _ h => h, ?_⟩,
        fun _ => hSome, fun h => by cases h⟩
      · cases zedc with
        | none => rfl
        | some z =>
            simp only [heldBy_some, ownHandle, hCache]
            rfl
      · intro z hZ
        refine ⟨fun h => ?_, fun _ => hCard z hZ⟩
        rw [hCache] at h
        cases h
  | true =>
      rw [if_pos rfl]
      cases hSlot : slot cardNo with
      | none =>
          refine Clean.pure ⟨(zero_add _).symm,
            ⟨hCards, fun _ _ h => h, fun z hZ => ?_⟩,
            (fun h => by cases h), ?_⟩
          · cases hZ
          · rintro _ ⟨i, z, hIs, _⟩
            cases hIs
      | some i =>
          simp only
          cases hHere : cards i with
          | some zedc =>
              refine Clean.pure ⟨?_,
                ⟨hCards, fun _ _ h => h, fun z hZ => ?_⟩,
                (fun h => by cases h), fun _ _ => rfl⟩
              · simp only [heldBy_some, ownHandle, hCache,
                  if_true]
                exact (zero_add _).symm
              · cases hZ
                refine ⟨fun _ => ⟨i, hSlot, hHere⟩,
                  fun h => ?_⟩
                rw [hCache] at h
                cases h
          | none =>
              refine clean_zedcOpen.bind ?_
              rintro zedc _ ⟨rfl, hSome, hCard⟩
              refine Clean.pure ⟨?_, ⟨⟨fun h => ?_, ?_⟩, ?_,
                ?_⟩, (fun h => by cases h), ?_⟩
              · rw [cardsHeld_update hHere, add_assoc]
                cases zedc with
                | none => exact (zero_add _).symm
                | some z =>
                    simp only [heldBy_some, ownHandle,
                      hCache, if_true]
                    exact (zero_add _).symm
              · rw [hCache] at h
                cases h
              · intro j z hIs
                change Function.update cards i zedc j = some z
                  at hIs
                by_cases hJ : j = i
                · subst hJ
                  rw [Function.update_self] at hIs
                  rw [(hCard z hIs).1]
                  exact hSlot
                · rw [Function.update_of_ne hJ] at hIs
                  exact hCards.place j z hIs
              · intro j z hIs
                have hJ : j ≠ i := by
                  rintro rfl
                  rw [hHere] at hIs
                  cases hIs
                change Function.update cards i zedc j = some z
                rw [Function.update_of_ne hJ]
                exact hIs
              · intro z hZ
                refine ⟨fun _ => ⟨i, hSlot, ?_⟩, fun h => ?_⟩
                · change Function.update cards i zedc i = some z
                  rw [Function.update_self]
                  exact hZ
                · rw [hCache] at h
                  cases h
              · rintro _ ⟨j, z, hIs, hThere⟩
                cases hIs
                rw [hHere] at hThere
                cases hThere

theorem clean_hwClose :
    Clean (ownHandle cfg zedc + own) (hwClose cfg zedc)
      (fun _ own' => own' = own) := by
  unfold hwClose ownHandle
  cases cfg.cacheHandles with
  | true => exact Clean.pure (zero_add _)
  | false => exact clean_zedcClose

/- A handle for a card is held by the table or its stream. -/
theorem HandleFor.held_le
    (hFor : HandleFor cfg cards cardNo cardType zedc) :
    zedc.held ≤ ownHandle cfg zedc + cardsHeld cards := by
  unfold ownHandle
  cases hCache : cfg.cacheHandles with
  | false =>
      rw [if_neg Bool.false_ne_true]
      exact Multiset.le_add_right _ _
  | true =>
      rw [if_pos rfl, zero_add]
      rcases hFor.cached hCache with ⟨i, _, hHere⟩
      unfold cardsHeld
      rw [Fintype.sum_eq_add_sum_compl i, hHere, heldBy_some]
      exact Multiset.le_add_right _ _

end Table

------------------------------------------------------------
-- Streams
------------------------------------------------------------

/- What a stream holds; a handle in the table is not its own. -/
def HwStream.held (cfg : HwConfig) (s : HwStream) : Held :=
  memHeld s.device.card s.flatWs wspSize s.wsp +
    (memHeld s.device.card s.flatOut s.obufTotal s.obufBase +
      (memHeld s.device.card s.flatIn s.ibufTotal s.ibufBase +
        (ownHandle cfg s.device + {(s.self, .heap)})))

/- A stream with its handle and buffers. -/
structure StreamParts
    (cfg : HwConfig) (cards : Cards) (s : HwStream) : Prop
    where
  handle : HandleFor cfg cards s.cardNo s.cardType s.device
  ibuf : s.ibufTotal = 0 ↔ s.ibufBase = none
  obuf : s.obufTotal = 0 ↔ s.obufBase = none
  ibufMap : s.ibufBase.isSome → CanMap s.device.card s.flatIn
  obufMap : s.obufBase.isSome → CanMap s.device.card s.flatOut

/- A stream that was set up. -/
structure StreamOk
    (cfg : HwConfig) (cards : Cards) (s : HwStream) : Prop
    extends StreamParts cfg cards s where
  wsp : s.wsp.isSome
  wspMap : CanMap s.device.card s.flatWs

section Streams

variable {cfg : HwConfig} {own : Held} {cards cards' : Cards}
variable {s : HwStream}

/- New handles do not change those that streams have. -/
theorem HandleFor.kept
    {cardNo : Int} {cardType : CardType} {zedc : ZedcDev}
    (hFor : HandleFor cfg cards cardNo cardType zedc)
    (hKept : ∀ i z, cards i = some z → cards' i = some z) :
    HandleFor cfg cards' cardNo cardType zedc := by
  refine ⟨fun hCache => ?_, hFor.own⟩
  rcases hFor.cached hCache with ⟨i, hSlot, hHere⟩
  exact ⟨i, hSlot, hKept i zedc hHere⟩

theorem StreamOk.kept
    (hOk : StreamOk cfg cards s)
    (hKept : ∀ i z, cards i = some z → cards' i = some z) :
    StreamOk cfg cards' s :=
  ⟨⟨hOk.handle.kept hKept, hOk.ibuf, hOk.obuf, hOk.ibufMap,
    hOk.obufMap⟩, hOk.wsp, hOk.wspMap⟩

/- What the parts of a stream hold, in front of others. -/
theorem HwStream.held_add (own : Held) :
    s.held cfg + own =
      memHeld s.device.card s.flatWs wspSize s.wsp +
        (memHeld s.device.card s.flatOut s.obufTotal
            s.obufBase +
          (memHeld s.device.card s.flatIn s.ibufTotal
              s.ibufBase +
            (ownHandle cfg s.device +
              ({(s.self, .heap)} + own)))) := by
  unfold HwStream.held
  abel

theorem clean_closeCard :
    Clean (ownHandle cfg s.device + ({(s.self, .heap)} + own))
      (closeCard cfg s) (fun _ own' => own' = own) := by
  unfold closeCard
  refine clean_hwClose.bind ?_
  rintro _ _ rfl
  exact clean_release _ _ _

/- The handle of a stream is held while anything of it is. -/
theorem StreamParts.device_le
    (hParts : StreamParts cfg cards s)
    (hCards : cardsHeld cards ≤ own) :
    s.device.held ≤
      ownHandle cfg s.device + ({(s.self, .heap)} + own) := by
  refine hParts.handle.held_le.trans ?_
  gcongr
  exact hCards.trans (Multiset.le_add_left _ _)

theorem clean_freeIbuf
    (hParts : StreamParts cfg cards s)
    (hCards : cardsHeld cards ≤ own) :
    Clean
      (memHeld s.device.card s.flatIn s.ibufTotal s.ibufBase +
        (ownHandle cfg s.device + ({(s.self, .heap)} + own)))
      (freeIbuf cfg s) (fun _ own' => own' = own) := by
  unfold freeIbuf
  refine (clean_zedcFree (hParts.device_le hCards)
    hParts.ibufMap).bind ?_
  rintro _ _ rfl
  exact clean_closeCard

theorem clean_deflateFreeObuf
    (hParts : StreamParts cfg cards s)
    (hCards : cardsHeld cards ≤ own) :
    Clean
      (memHeld s.device.card s.flatOut s.obufTotal s.obufBase +
        (memHeld s.device.card s.flatIn s.ibufTotal
            s.ibufBase +
          (ownHandle cfg s.device +
            ({(s.self, .heap)} + own))))
      (deflateFreeObuf cfg s) (fun _ own' => own' = own) := by
  unfold deflateFreeObuf
  refine (clean_zedcFree
    ((hParts.device_le hCards).trans
      (Multiset.le_add_left _ _))
    hParts.obufMap).bind ?_
  rintro _ _ rfl
  exact clean_freeIbuf hParts hCards

theorem clean_inflateFreeObuf
    (hParts : StreamParts cfg cards s)
    (hCards : cardsHeld cards ≤ own) :
    Clean
      (memHeld s.device.card s.flatOut s.obufTotal s.obufBase +
        (ownHandle cfg s.device + ({(s.self, .heap)} + own)))
      (inflateFreeObuf cfg s) (fun _ own' => own' = own) := by
  unfold inflateFreeObuf
  refine (clean_zedcFree (hParts.device_le hCards)
    hParts.obufMap).bind ?_
  rintro _ _ rfl
  exact clean_closeCard

theorem clean_zedcFreeWorkspace
    (hHeld : s.device.held ≤ own)
    (hMap : s.wsp.isSome → CanMap s.device.card s.flatWs) :
    Clean
      (memHeld s.device.card s.flatWs wspSize s.wsp + own)
      (zedcFreeWorkspace s)
      (fun s' own' =>
        own' = own ∧ s' = { s with wsp := none }) := by
  unfold zedcFreeWorkspace
  refine (clean_zedcFree hHeld hMap).bind ?_
  rintro _ _ rfl
  exact Clean.pure ⟨rfl, rfl⟩

/- Ending a stream returns all that it holds. -/
theorem clean_hDeflateEnd
    (hOk : StreamOk cfg cards s)
    (hCards : cardsHeld cards ≤ own) :
    Clean (s.held cfg + own) (hDeflateEnd cfg s)
      (fun _ own' => own' = own) := by
  rw [HwStream.held_add]
  unfold hDeflateEnd
  refine (clean_use (k := .heap) (by simp)).bind ?_
  rintro _ _ rfl
  refine (clean_zedcFreeWorkspace
    ((hOk.device_le hCards).trans
      ((Multiset.le_add_left _ _).trans
        (Multiset.le_add_left _ _)))
    (fun _ => hOk.wspMap)).bind ?_
  rintro _ _ ⟨rfl, rfl⟩
  exact clean_deflateFreeObuf
    ⟨hOk.handle, hOk.ibuf, hOk.obuf, hOk.ibufMap,
      hOk.obufMap⟩ hCards

/- The same of a stream without an input buffer. -/
theorem clean_hInflateEnd
    (hOk : StreamOk cfg cards s)
    (hIbuf : s.ibufBase = none)
    (hCards : cardsHeld cards ≤ own) :
    Clean (s.held cfg + own) (hInflateEnd cfg s)
      (fun _ own' => own' = own) := by
  have hNoIbuf :
      memHeld s.device.card s.flatIn s.ibufTotal s.ibufBase =
        0 := by
    rw [hIbuf]
    rfl
  rw [HwStream.held_add, hNoIbuf, zero_add]
  unfold hInflateEnd
  refine (clean_use (k := .heap) (by simp)).bind ?_
  rintro _ _ rfl
  refine (clean_zedcFreeWorkspace
    ((hOk.device_le hCards).trans (Multiset.le_add_left _ _))
    (fun _ => hOk.wspMap)).bind ?_
  rintro _ _ ⟨rfl, rfl⟩
  exact clean_inflateFreeObuf
    ⟨hOk.handle, hOk.ibuf, hOk.obuf, hOk.ibufMap,
      hOk.obufMap⟩ hCards

/- The workspace, where the stream is set up. -/
theorem clean_zedcInit2
    {env : InitEnv} {windowBits : Int}
    (hHeld : s.device.held ≤ own)
    (hNone : s.wsp = none) :
    Clean own (zedcInit2 env windowBits s)
      (fun ret own' =>
        own' =
            memHeld s.device.card s.flatWs wspSize ret.2.wsp +
              own ∧
          ret.2 = { s with wsp := ret.2.wsp } ∧
          (ret.1 = .ok ↔ ret.2.wsp.isSome) ∧
          (ret.2.wsp.isSome →
            CanMap s.device.card s.flatWs)) := by
  rcases ZedcDev.mem_held hHeld with ⟨hZedc, hCard, _⟩
  have hNothing :
      ∀ rc : Rc, rc ≠ .ok →
        own =
            memHeld s.device.card s.flatWs wspSize s.wsp +
              own ∧
          s = { s with wsp := s.wsp } ∧
          (rc = .ok ↔ s.wsp.isSome) ∧
          (s.wsp.isSome → CanMap s.device.card s.flatWs) := by
    intro rc hRc
    rw [hNone]
    exact ⟨(zero_add _).symm, rfl,
      iff_of_false hRc (fun h => by cases h),
      fun h => by cases h⟩
  unfold zedcInit2
  refine (clean_use hZedc).bind ?_
  rintro _ _ rfl
  refine (clean_use hCard).bind ?_
  rintro _ _ rfl
  by_cases hIs : env.zedc = true
  · rw [if_pos hIs]
    unfold zedcAllocWorkspace
    refine (clean_zedcMemalign hHeld).bind ?_
    rintro wsp _ ⟨rfl, hSome⟩
    cases wsp with
    | none =>
        rw [memHeld, heldBy_none, zero_add]
        exact Clean.pure (hNothing .memError (by decide))
    | some wsp =>
        have hMap := (hSome.mp rfl).2
        cases hFormat : Hardware.formatInit windowBits with
        | some _ =>
            exact Clean.pure ⟨rfl, rfl, iff_of_true rfl rfl,
              fun _ => hMap⟩
        | none =>
            refine (clean_zedcFreeWorkspace
              (s := { s with wsp := some wsp }) hHeld
              (fun _ => hMap)).bind ?_
            rintro _ _ ⟨rfl, rfl⟩
            exact Clean.pure ⟨(zero_add _).symm, rfl,
              iff_of_false (fun h => by cases h)
                (fun h => by cases h),
              fun h => by cases h⟩
  · rw [if_neg hIs]
    exact Clean.pure (hNothing .errIllegalAppid (by decide))

end Streams

------------------------------------------------------------
-- Setting Up
------------------------------------------------------------

section SetUp

variable {cfg : HwConfig} {own : Held} {cards : Cards}
variable {s : HwStream} {args : InitArgs} {env : InitEnv}
variable {zedc : ZedcDev} {self : Nat} {windowBits : Int}

/- What the end of setting up leaves, with or without stream. -/
structure SetUp
    (cfg : HwConfig)
    (cards : Cards)
    (own : Held)
    (strm : Option HwStream)
    (own' : Held) : Prop where
  held : own' = heldBy (HwStream.held cfg) strm + own
  ok : ∀ s, strm = some s → StreamOk cfg cards s

/- Nothing was set up, and nothing is held. -/
theorem SetUp.failed : SetUp cfg cards own none own :=
  ⟨(zero_add _).symm, fun s hS => by cases hS⟩

/- A stream whose workspace was got. -/
theorem StreamParts.finished
    (hParts : StreamParts cfg cards s)
    (wsp : Nat)
    (hMap : CanMap s.device.card s.flatWs) :
    StreamOk cfg cards { s with wsp := some wsp } :=
  ⟨⟨hParts.handle, hParts.ibuf, hParts.obuf, hParts.ibufMap,
    hParts.obufMap⟩, rfl, hMap⟩

theorem clean_finishSetUp
    {freeObuf : HwStream → M Unit} {held : Held}
    (hParts : StreamParts cfg cards s)
    (hNone : s.wsp = none)
    (hDevice : s.device.held ≤ held)
    (hHeld : held = s.held cfg + own)
    (hFree :
      Clean held (freeObuf s) (fun _ own' => own' = own)) :
    Clean held (finishSetUp freeObuf env windowBits s)
      (fun ret own' =>
        SetUp cfg cards own ret.2 own' ∧
          ∀ s', ret.2 = some s' →
            s'.ibufBase = s.ibufBase) := by
  unfold finishSetUp
  refine (clean_zedcInit2 hDevice hNone).bind ?_
  rintro ⟨rc, t⟩ _ ⟨rfl, hT, hRc, hMap⟩
  simp only at hT hRc hMap ⊢
  by_cases hIs : rc = .ok
  · rw [if_pos hIs]
    rcases Option.isSome_iff_exists.mp (hRc.mp hIs) with
      ⟨wsp, hWsp⟩
    rw [hWsp] at hT hMap
    refine Clean.pure ⟨⟨?_, fun s' hS => ?_⟩,
      fun s' hS => ?_⟩
    · rw [heldBy_some, hT, hHeld, HwStream.held_add,
        HwStream.held_add, hNone]
      exact congrArg _ (zero_add _)
    · cases hS
      rw [hT]
      exact hParts.finished wsp (hMap rfl)
    · cases hS
      rw [hT]
  · rw [if_neg hIs]
    have hWsp : t.wsp = none := by
      rw [← Option.not_isSome_iff_eq_none]
      exact fun hSome => hIs (hRc.mpr hSome)
    have hSame : t = s := by
      rw [hT, hWsp, ← hNone]
    rw [hWsp, memHeld, heldBy_none, zero_add, hSame]
    refine hFree.bind ?_
    rintro _ _ rfl
    exact Clean.pure ⟨SetUp.failed, fun s' hS => by cases hS⟩

/- A stream without buffers is set up so far. -/
theorem bareStream_parts
    (hFor : HandleFor cfg cards args.cardNo args.cardType zedc)
    (flatIn flatOut flatWs : Bool) :
    StreamParts cfg cards
      (bareStream self args zedc flatIn flatOut flatWs) :=
  ⟨hFor, iff_of_true rfl rfl, iff_of_true rfl rfl,
    (fun h => by cases h), fun h => by cases h⟩

/- A buffer was got, and the stream has it. -/
theorem StreamParts.withIbuf
    (hParts : StreamParts cfg cards s)
    {total : Nat}
    (hTotal : total ≠ 0)
    (ptr : Nat)
    (hMap : CanMap s.device.card s.flatIn) :
    StreamParts cfg cards
      { s with ibufTotal := total, ibufBase := some ptr } :=
  ⟨hParts.handle,
    iff_of_false hTotal (fun h => by cases h), hParts.obuf,
    fun _ => hMap, hParts.obufMap⟩

theorem StreamParts.withObuf
    (hParts : StreamParts cfg cards s)
    {total : Nat}
    (hTotal : total ≠ 0)
    (ptr : Nat)
    (hMap : CanMap s.device.card s.flatOut) :
    StreamParts cfg cards
      { s with obufTotal := total, obufBase := some ptr } :=
  ⟨hParts.handle, hParts.ibuf,
    iff_of_false hTotal (fun h => by cases h),
    hParts.ibufMap, fun _ => hMap⟩

/- What is held in front of the workspace. -/
theorem HwStream.held_unfinished
    (hNone : s.wsp = none) (own : Held) :
    s.held cfg + own =
      memHeld s.device.card s.flatOut s.obufTotal s.obufBase +
        (memHeld s.device.card s.flatIn s.ibufTotal
            s.ibufBase +
          (ownHandle cfg s.device +
            ({(s.self, .heap)} + own))) := by
  rw [HwStream.held_add, hNone, memHeld, heldBy_none,
    zero_add]

theorem clean_hDeflateFinish
    (hParts : StreamParts cfg cards s)
    (hNone : s.wsp = none)
    (hCards : cardsHeld cards ≤ own) :
    Clean
      (memHeld s.device.card s.flatOut s.obufTotal s.obufBase +
        (memHeld s.device.card s.flatIn s.ibufTotal
            s.ibufBase +
          (ownHandle cfg s.device +
            ({(s.self, .heap)} + own))))
      (hDeflateFinish cfg env windowBits s)
      (fun ret own' => SetUp cfg cards own ret.2 own') :=
  Clean.mono
    (clean_finishSetUp hParts hNone
      ((hParts.device_le hCards).trans
        ((Multiset.le_add_left _ _).trans
          (Multiset.le_add_left _ _)))
      (HwStream.held_unfinished hNone own).symm
      (clean_deflateFreeObuf hParts hCards))
    (fun _ _ h => h.1)

theorem clean_hInflateFinish
    (hParts : StreamParts cfg cards s)
    (hNone : s.wsp = none)
    (hIbuf : s.ibufBase = none)
    (hCards : cardsHeld cards ≤ own) :
    Clean
      (memHeld s.device.card s.flatOut s.obufTotal s.obufBase +
        (ownHandle cfg s.device + ({(s.self, .heap)} + own)))
      (hInflateFinish cfg env windowBits s)
      (fun ret own' =>
        SetUp cfg cards own ret.2 own' ∧
          ∀ s', ret.2 = some s' → s'.ibufBase = none) := by
  rw [← hIbuf]
  refine clean_finishSetUp hParts hNone
    ((hParts.device_le hCards).trans
      (Multiset.le_add_left _ _)) ?_
    (clean_inflateFreeObuf hParts hCards)
  rw [HwStream.held_unfinished hNone, hIbuf]
  simp only [memHeld, heldBy_none, zero_add]

/- `h_deflateInit2_` with the handle that it has opened. -/
theorem clean_hDeflateSetUp
    (hFor : HandleFor cfg cards args.cardNo args.cardType zedc)
    (hCards : cardsHeld cards ≤ own) :
    Clean (ownHandle cfg zedc + ({(self, .heap)} + own))
      (hDeflateSetUp cfg args env self zedc)
      (fun ret own' => SetUp cfg cards own ret.2 own') := by
  unfold hDeflateSetUp
  generalize (cfg.flatDeflate && cfg.ibufTotal != 0) = flat
  have hParts :
      StreamParts cfg cards
        (bareStream self args zedc flat flat
          cfg.flatDeflate) := bareStream_parts hFor _ _ _
  have hDevice := hParts.device_le hCards
  simp only
  by_cases hTotal : cfg.ibufTotal = 0
  · rw [if_pos hTotal]
    refine Clean.of_eq ?_
      (clean_hDeflateFinish hParts rfl hCards)
    simp only [bareStream, memHeld, heldBy_none, zero_add]
  · rw [if_neg hTotal]
    refine (clean_zedcMemalign hDevice).bind ?_
    rintro ibuf _ ⟨rfl, hIbuf⟩
    cases ibuf with
    | none =>
        rw [memHeld, heldBy_none, zero_add]
        refine Clean.bind
          (clean_closeCard (s := bareStream self args zedc
            flat flat cfg.flatDeflate)) ?_
        rintro _ _ rfl
        exact Clean.pure SetUp.failed
    | some ibuf =>
        have hPartsI := hParts.withIbuf hTotal ibuf
          (hIbuf.mp rfl).2
        refine (clean_zedcMemalign (hDevice.trans
          (Multiset.le_add_left _ _))).bind ?_
        rintro obuf _ ⟨rfl, hObuf⟩
        cases obuf with
        | none =>
            rw [memHeld, heldBy_none, zero_add]
            refine Clean.bind
              (clean_freeIbuf hPartsI hCards) ?_
            rintro _ _ rfl
            exact Clean.pure SetUp.failed
        | some obuf =>
            have hBound :
                Hardware.hDeflateBound cfg.pageSize
                  cfg.ibufTotal ≠ 0 := by
              unfold Hardware.hDeflateBound
              omega
            have hPartsO := hPartsI.withObuf hBound obuf
              (hObuf.mp rfl).2
            exact clean_hDeflateFinish hPartsO rfl hCards

/- `h_inflateInit2_` with its handle. -/
theorem clean_hInflateSetUp
    (hFor : HandleFor cfg cards args.cardNo args.cardType zedc)
    (hCards : cardsHeld cards ≤ own) :
    Clean (ownHandle cfg zedc + ({(self, .heap)} + own))
      (hInflateSetUp cfg args env self zedc)
      (fun ret own' =>
        SetUp cfg cards own ret.2 own' ∧
          ∀ s, ret.2 = some s → s.ibufBase = none) := by
  unfold hInflateSetUp
  have hParts :
      StreamParts cfg cards
        (bareStream self args zedc false
          (cfg.flatInflate && cfg.obufTotal != 0)
          cfg.flatInflate) := bareStream_parts hFor _ _ _
  have hDevice := hParts.device_le hCards
  simp only
  by_cases hTotal : cfg.obufTotal = 0
  · rw [if_pos hTotal]
    refine Clean.of_eq ?_
      (clean_hInflateFinish hParts rfl rfl hCards)
    simp only [bareStream, memHeld, heldBy_none, zero_add]
  · rw [if_neg hTotal]
    refine (clean_zedcMemalign hDevice).bind ?_
    rintro obuf _ ⟨rfl, hObuf⟩
    cases obuf with
    | none =>
        rw [memHeld, heldBy_none, zero_add]
        refine Clean.bind
          (clean_closeCard (s := bareStream self args zedc
            false (cfg.flatInflate && cfg.obufTotal != 0)
            cfg.flatInflate)) ?_
        rintro _ _ rfl
        exact Clean.pure
          ⟨SetUp.failed, fun s' hS => by cases hS⟩
    | some obuf =>
        have hPartsO := hParts.withObuf hTotal obuf
          (hObuf.mp rfl).2
        exact clean_hInflateFinish hPartsO rfl rfl hCards

/- What a call that makes a stream leaves. -/
structure Made
    (cfg : HwConfig)
    (cards : Cards)
    (own : Held)
    (ret : StreamRet)
    (own' : Held) : Prop where
  held :
    own' =
      heldBy (HwStream.held cfg) ret.strm +
        (cardsHeld ret.cards + own)
  table : CardsOk cfg ret.cards
  kept : ∀ i z, cards i = some z → ret.cards i = some z
  ok : ∀ s, ret.strm = some s → StreamOk cfg ret.cards s

/- Both functions; `A` holds of every stream set up. -/
theorem clean_hInit2
    {setUp : Nat → ZedcDev → M (Rc × Option HwStream)}
    {A : HwStream → Prop}
    (hCards : CardsOk cfg cards)
    (hSetUp :
      ∀ cards self zedc own,
        HandleFor cfg cards args.cardNo args.cardType zedc →
          cardsHeld cards ≤ own →
            Clean
              (ownHandle cfg zedc + ({(self, .heap)} + own))
              (setUp self zedc)
              (fun ret own' =>
                SetUp cfg cards own ret.2 own' ∧
                  ∀ s, ret.2 = some s → A s)) :
    Clean (cardsHeld cards + own)
      (hInit2 setUp cfg args env cards)
      (fun ret own' =>
        Made cfg cards own ret own' ∧
          ∀ s, ret.strm = some s → A s) := by
  have hNothing :
      ∀ {cards' : Cards} (rc : Rc), CardsOk cfg cards' →
        (∀ i z, cards i = some z → cards' i = some z) →
          Made cfg cards own ⟨rc, none, cards'⟩
              (cardsHeld cards' + own) ∧
            ∀ s, (none : Option HwStream) = some s →
              A s := by
    intro cards' rc hCards' hKept
    refine ⟨⟨(zero_add _).symm, hCards', hKept, ?_⟩, ?_⟩ <;>
      · intro s hS
        cases hS
  unfold hInit2
  by_cases hState : env.hwState = true
  · rw [if_pos hState]
    refine (clean_acquire _ _).bind ?_
    rintro self _ rfl
    refine Clean.bind (Clean.of_eq
      (add_left_comm _ _ _) (clean_hwOpen hCards)) ?_
    rintro ⟨zedc, cards'⟩ _ ⟨rfl, hOpened, _⟩
    cases zedc with
    | none =>
        refine Clean.bind (Clean.of_eq ?_
          (clean_release (cardsHeld cards' + own) self
            .heap)) ?_
        · rw [heldBy_none, zero_add]
          exact add_left_comm _ _ _
        · rintro _ _ rfl
          exact Clean.pure
            (hNothing .streamError hOpened.ok hOpened.kept)
    | some zedc =>
        refine Clean.bind (Clean.of_eq ?_
          (hSetUp cards' self zedc (cardsHeld cards' + own)
            (hOpened.handle zedc rfl)
            (Multiset.le_add_right _ _))) ?_
        · rw [heldBy_some]
          congr 1
          exact add_left_comm _ _ _
        · rintro ⟨rc, s⟩ _ ⟨hMade, hA⟩
          exact Clean.pure ⟨⟨hMade.held, hOpened.ok,
            hOpened.kept, hMade.ok⟩, hA⟩
  · rw [if_neg hState]
    exact Clean.pure
      (hNothing .memError hCards (fun _ _ h => h))

theorem clean_hDeflateInit2 (hCards : CardsOk cfg cards) :
    Clean (cardsHeld cards + own)
      (hDeflateInit2 cfg args env cards)
      (fun ret own' => Made cfg cards own ret own') := by
  refine Clean.mono
    (clean_hInit2 (A := fun _ => True) hCards ?_)
    (fun _ _ h => h.1)
  intro cards' self zedc own' hFor hLe
  exact (clean_hDeflateSetUp hFor hLe).mono
    (fun _ _ h => ⟨h, fun _ _ => trivial⟩)

theorem clean_hInflateInit2 (hCards : CardsOk cfg cards) :
    Clean (cardsHeld cards + own)
      (hInflateInit2 cfg args env cards)
      (fun ret own' =>
        Made cfg cards own ret own' ∧
          ∀ s, ret.strm = some s → s.ibufBase = none) :=
  clean_hInit2 hCards (fun _ _ _ _ hFor hLe =>
    clean_hInflateSetUp hFor hLe)

end SetUp

------------------------------------------------------------
-- Copies
------------------------------------------------------------

/- The buffers of a copy can be had. -/
structure BuffersOk (s : HwStream) (env : CopyEnv) : Prop
    where
  ibuf : s.ibufTotal ≠ 0 → env.ibuf = true
  obuf : s.obufTotal ≠ 0 → env.obuf = true

/- A handle for a copy can be had; a kept one is there. -/
def HandleOk
    (cfg : HwConfig) (s : HwStream) (env : CopyEnv) : Prop :=
  cfg.cacheHandles = false → Opens cfg env.device s.cardType

/- A copy that has its workspace, and is not completed. -/
structure Abandons
    (cfg : HwConfig) (s : HwStream) (env : CopyEnv) : Prop
    where
  hwState : env.hwState = true
  wsp : env.wsp = true
  rest : ¬ (HandleOk cfg s env ∧ BuffersOk s env)

section Copy

variable {cfg : HwConfig} {own : Held} {cards : Cards}
variable {s d : HwStream} {env : CopyEnv} {zedc : ZedcDev}
variable {card card' : Card} {flat ok : Bool}

theorem memHeld_congr
    (hType : card.cardType = card'.cardType)
    (flat : Bool)
    (size : Nat)
    (ptr : Option Nat) :
    memHeld card flat size ptr =
      memHeld card' flat size ptr := by
  unfold memHeld memKind
  rw [hType]

theorem canMap_congr
    (hType : card.cardType = card'.cardType)
    (hNo : card.cardNo = card'.cardNo)
    (hMap : CanMap card flat) : CanMap card' flat := by
  intro hFlat hGenwqe
  rw [← hNo]
  exact hMap hFlat (hType.trans hGenwqe)

theorem clean_copyBuffer
    {total : Nat} {base : Option Nat}
    (hHeld : zedc.held ≤ own)
    (hTotal : total = 0 ↔ base = none)
    (hMap : base.isSome → CanMap zedc.card flat) :
    Clean own (copyBuffer zedc total base flat ok)
      (fun ptr own' =>
        own' =
            heldBy (memHeld zedc.card flat total) ptr + own ∧
          (ptr.isSome ↔ (total ≠ 0 → ok = true)) ∧
          ∀ b, ptr = some b → (b = none ↔ base = none)) := by
  unfold copyBuffer
  by_cases hZero : total = 0
  · rw [if_pos hZero]
    refine Clean.pure ⟨?_, ?_, ?_⟩
    · rw [hTotal.mp hZero]
      exact (zero_add _).symm
    · exact iff_of_true rfl (fun hNot => absurd hZero hNot)
    · rintro b hB
      cases hB
      exact Iff.rfl
  · have hBase : base ≠ none :=
      fun hNone => hZero (hTotal.mpr hNone)
    rw [if_neg hZero]
    refine (clean_zedcMemalign hHeld).bind ?_
    rintro ptr _ ⟨rfl, hSome⟩
    have hCan : CanMap zedc.card flat :=
      hMap (Option.isSome_iff_ne_none.mpr hBase)
    refine Clean.pure ⟨?_, ?_, ?_⟩
    · cases ptr <;> rfl
    · rw [Option.isSome_map, hSome]
      exact ⟨fun h _ => h.1, fun h => ⟨h hZero, hCan⟩⟩
    · rintro b hB
      cases ptr with
      | none => cases hB
      | some p =>
          cases hB
          exact iff_of_false (fun h => by cases h) hBase

/- The copy has a buffer where its source has one. -/
theorem StreamParts.withCopies
    {ibuf obuf : Option Nat}
    (hParts : StreamParts cfg cards d)
    (hIbuf : ibuf = none ↔ d.ibufBase = none)
    (hObuf : obuf = none ↔ d.obufBase = none) :
    StreamParts cfg cards
      { d with ibufBase := ibuf, obufBase := obuf } := by
  refine ⟨hParts.handle, hParts.ibuf.trans hIbuf.symm,
    hParts.obuf.trans hObuf.symm, fun h => ?_, fun h => ?_⟩
  · apply hParts.ibufMap
    rw [Option.isSome_iff_ne_none] at h ⊢
    exact fun hNone => h (hIbuf.mpr hNone)
  · apply hParts.obufMap
    rw [Option.isSome_iff_ne_none] at h ⊢
    exact fun hNone => h (hObuf.mpr hNone)

/- Memory that was freed with `free`, or is lost. -/
theorem spec_free
    (size : Nat) (ptr : Option Nat) (own : Held) :
    Spec (memHeld card flat size ptr + own) (free ptr)
      (fun _ own' _ => ∃ lost, own' = lost + own) := by
  unfold free
  cases ptr with
  | none => exact Spec.pure ⟨0, rfl⟩
  | some p =>
      by_cases hKind : memKind card flat size = .heap
      · unfold memHeld
        rw [heldBy_some, hKind]
        refine Spec.mono (clean_release own p .heap) ?_
        rintro _ own' _ ⟨_, rfl⟩
        exact ⟨0, (zero_add _).symm⟩
      · have hMem :
            (p, memKind card flat size) ∈
              memHeld card flat size (some p) + own := by
          unfold memHeld
          simp
        refine Spec.mono
          (spec_release_wrong hMem (Ne.symm hKind)) ?_
        rintro _ own' _ ⟨rfl, _⟩
        exact ⟨_, rfl⟩

/- The buffers of a copy that has a handle. -/
theorem spec_hDeflateCopyBuffers
    (hParts : StreamParts cfg cards d)
    (hWsp : d.wsp.isSome)
    (hMap : CanMap d.device.card d.flatWs)
    (hCards : cardsHeld cards ≤ own) :
    Spec
      (memHeld d.device.card d.flatWs wspSize d.wsp +
        (ownHandle cfg d.device + ({(d.self, .heap)} + own)))
      (hDeflateCopyBuffers cfg env d)
      (fun ret own' wrong =>
        (BuffersOk d env →
            wrong = [] ∧ SetUp cfg cards own ret.2 own') ∧
          (¬ BuffersOk d env →
            ret.2 = none ∧
              ∃ lost,
                own' =
                  lost +
                    (memHeld d.device.card d.flatWs wspSize
                        d.wsp + own))) := by
  have hDevice := (hParts.device_le hCards).trans
    (Multiset.le_add_left _
      (memHeld d.device.card d.flatWs wspSize d.wsp))
  unfold hDeflateCopyBuffers
  refine Clean.spec_bind (clean_copyBuffer hDevice
    hParts.ibuf hParts.ibufMap) ?_
  rintro ibuf _ ⟨rfl, hIbuf, hIbufNone⟩
  cases ibuf with
  | none =>
      have hNot : ¬ BuffersOk d env :=
        fun h => by cases hIbuf.mpr h.ibuf
      rw [heldBy_none, zero_add, add_left_comm,
        add_left_comm _ {(d.self, Kind.heap)}]
      refine Spec.clean_bind clean_closeCard ?_
      rintro _ _ _ ⟨_, rfl⟩
      exact Clean.pure ⟨fun h => absurd h hNot,
        fun _ => ⟨rfl, 0, (zero_add _).symm⟩⟩
  | some ibuf =>
      refine Clean.spec_bind (clean_copyBuffer
        (hDevice.trans (Multiset.le_add_left _ _))
        hParts.obuf hParts.obufMap) ?_
      rintro obuf _ ⟨rfl, hObuf, hObufNone⟩
      cases obuf with
      | none =>
          have hNot : ¬ BuffersOk d env :=
            fun h => by cases hObuf.mpr h.obuf
          rw [heldBy_none, zero_add, heldBy_some]
          refine Spec.clean_bind (spec_free _ _ _) ?_
          rintro _ _ wrong ⟨lost, rfl⟩
          rw [add_left_comm _ (ownHandle cfg d.device),
            add_left_comm _ {(d.self, Kind.heap)},
            add_left_comm lost,
            add_left_comm lost {(d.self, Kind.heap)}]
          refine Clean.bind clean_closeCard ?_
          rintro _ _ rfl
          exact Clean.pure ⟨fun h => absurd h hNot,
            fun _ => ⟨rfl, lost, rfl⟩⟩
      | some obuf =>
          have hBoth : BuffersOk d env :=
            ⟨hIbuf.mp rfl, hObuf.mp rfl⟩
          refine Spec.pure ⟨fun _ => ⟨rfl, ?_, ?_⟩,
            fun hNot => absurd hBoth hNot⟩
          · simp only [heldBy_some]
            unfold HwStream.held
            simp only
            abel
          · rintro s' hS
            cases hS
            exact ⟨hParts.withCopies (hIbufNone _ rfl)
              (hObufNone _ rfl), hWsp, hMap⟩

/- What a copy leaves, and loses if it is abandoned. -/
def Copied
    (cfg : HwConfig)
    (cards : Cards)
    (own : Held)
    (abandons : Prop)
    (ret : StreamRet)
    (own' : Held)
    (wrong : List Nat) : Prop :=
  ∃ lost,
    Made cfg cards (lost + own) ret own' ∧
      (lost = 0 ↔ ¬ abandons) ∧
      (¬ abandons → wrong = [])

/- A copy that fails with nothing got. -/
theorem spec_noCopy
    {abandons : Prop}
    (hCards : CardsOk cfg cards)
    (hNot : ¬ abandons)
    (rc : Rc) :
    Spec (cardsHeld cards + own)
      (pure ⟨rc, none, cards⟩ : M StreamRet)
      (Copied cfg cards own abandons) := by
  refine Spec.pure ⟨0, ⟨?_, hCards, fun _ _ h => h,
    fun t hT => ?_⟩, iff_of_true rfl hNot, fun _ => rfl⟩
  · rw [heldBy_none, zero_add, zero_add]
  · cases hT

/- A copy that is abandoned with something got. -/
theorem Made.abandoned
    {cards' : Cards} {lost : Held} {rc : Rc}
    {abandons : Prop} {wrong : List Nat}
    (hOk : CardsOk cfg cards')
    (hKept : ∀ i z, cards i = some z → cards' i = some z)
    (hAbandons : abandons)
    (hLost : lost ≠ 0) :
    Copied cfg cards own abandons ⟨rc, none, cards'⟩
      (lost + (cardsHeld cards' + own)) wrong := by
  refine ⟨lost, ⟨?_, hOk, hKept, fun t hT => ?_⟩,
    iff_of_false hLost (fun h => h hAbandons),
    fun h => absurd hAbandons h⟩
  · rw [heldBy_none, zero_add]
    exact add_left_comm _ _ _
  · cases hT

/- The copy from where its workspace and handle were got. -/
theorem spec_copyOpened
    {cards' : Cards} {self wsp : Nat}
    (hOk : StreamOk cfg cards s)
    (hOpened :
      HwOpened cfg cards s.cardNo s.cardType (some zedc)
        cards')
    (hState : env.hwState = true)
    (hWsp : env.wsp = true)
    (hHandle : HandleOk cfg s env) :
    Spec
      (memHeld s.device.card s.flatWs wspSize (some wsp) +
        (ownHandle cfg zedc +
          ({(self, .heap)} + (cardsHeld cards' + own))))
      (do
        let (rc, d) ← hDeflateCopyBuffers cfg env
          { s with
            self := self, wsp := some wsp, device := zedc }
        return ⟨rc, d, cards'⟩)
      (Copied cfg cards own (Abandons cfg s env)) := by
  have hDevice := hOk.handle.kept hOpened.kept
  have hFor := hOpened.handle zedc rfl
  have hType := (hDevice.sameType hFor).symm
  have hNo : s.device.card.cardNo = zedc.card.cardNo :=
    (hDevice.sameCard hOpened.ok).trans
      (hFor.sameCard hOpened.ok).symm
  have hParts :
      StreamParts cfg cards'
        { s with
          self := self, wsp := some wsp, device := zedc } :=
    ⟨hFor, hOk.ibuf, hOk.obuf,
      (fun h => canMap_congr hType hNo (hOk.ibufMap h)),
      fun h => canMap_congr hType hNo (hOk.obufMap h)⟩
  rw [memHeld_congr hType]
  refine Spec.clean_bind (spec_hDeflateCopyBuffers hParts rfl
    (canMap_congr hType hNo hOk.wspMap)
    (Multiset.le_add_right (cardsHeld cards') own)) ?_
  rintro ⟨rc, d⟩ own' wrong ⟨hMade, hFailed⟩
  refine Clean.pure ?_
  by_cases hBuffers : BuffersOk s env
  · rcases hMade ⟨hBuffers.ibuf, hBuffers.obuf⟩ with
      ⟨rfl, hHeld, hDOk⟩
    refine ⟨0, ⟨?_, hOpened.ok, hOpened.kept, hDOk⟩,
      iff_of_true rfl (fun h => h.rest ⟨hHandle, hBuffers⟩),
      fun _ => rfl⟩
    rw [zero_add]
    exact hHeld
  · rcases hFailed (fun h => hBuffers ⟨h.ibuf, h.obuf⟩) with
      ⟨hNone, lost, rfl⟩
    change d = none at hNone
    rw [hNone, ← add_assoc]
    refine Made.abandoned hOpened.ok hOpened.kept
      ⟨hState, hWsp, fun h => hBuffers h.2⟩ ?_
    intro hZero
    exact Multiset.singleton_ne_zero _
      (add_eq_zero.mp hZero).2

theorem spec_hDeflateCopy
    (hOk : StreamOk cfg cards s)
    (hCards : CardsOk cfg cards)
    (hHeld : s.device.held ≤ cardsHeld cards + own) :
    Spec (cardsHeld cards + own) (hDeflateCopy cfg env s cards)
      (Copied cfg cards own (Abandons cfg s env)) := by
  unfold hDeflateCopy
  by_cases hState : env.hwState = true
  · rw [if_pos hState]
    refine Clean.spec_bind (clean_acquire _ _) ?_
    rintro self _ rfl
    refine Clean.spec_bind (clean_zedcMemalign
      (hHeld.trans (Multiset.le_add_left _ _))) ?_
    rintro wsp _ ⟨rfl, hWsp⟩
    cases wsp with
    | none =>
        rw [memHeld, heldBy_none, zero_add]
        refine Clean.spec_bind (clean_release _ _ _) ?_
        rintro _ _ rfl
        refine spec_noCopy hCards (fun h => ?_) .memError
        cases hWsp.mpr ⟨h.wsp, hOk.wspMap⟩
    | some wsp =>
        have hEnvWsp := (hWsp.mp rfl).1
        rw [add_left_comm _ (cardsHeld cards),
          add_left_comm _ (cardsHeld cards)]
        refine Clean.spec_bind (clean_hwOpen hCards) ?_
        rintro ⟨zedc, cards'⟩ _ ⟨rfl, hOpened, hNew, hOld⟩
        cases zedc with
        | none =>
            have hAbandons : Abandons cfg s env := by
              refine ⟨hState, hEnvWsp, fun h => ?_⟩
              cases hCache : cfg.cacheHandles with
              | false => cases (hNew hCache).mpr (h.1 hCache)
              | true =>
                  rcases hOk.handle.cached hCache with
                    ⟨i, hSlot, hHere⟩
                  cases hOld hCache ⟨i, _, hSlot, hHere⟩
            refine Clean.spec_bind (Clean.of_eq ?_
              (clean_release
                (memHeld s.device.card s.flatWs wspSize
                    (some wsp) + (cardsHeld cards' + own))
                self .heap)) ?_
            · rw [heldBy_none]
              abel
            rintro _ _ rfl
            exact Spec.pure
              (Made.abandoned hOpened.ok hOpened.kept
                hAbandons (Multiset.singleton_ne_zero _))
        | some zedc =>
            have hHandle : HandleOk cfg s env :=
              fun hCache => (hNew hCache).mp rfl
            refine Spec.of_eq ?_
              (spec_copyOpened hOk hOpened hState hEnvWsp
                hHandle)
            rw [heldBy_some]
            abel
  · rw [if_neg hState]
    exact spec_noCopy hCards (fun h => hState h.hwState)
      .memError

end Copy

end Lifecycle
