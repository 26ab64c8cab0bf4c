import Mathlib.Data.List.Basic
import Mathlib.Tactic

/-!
# One stream, two segmentations

A sender writes items, each as its bytes; a receiver cuts the same stream into pieces
and treats every piece on its own. What is sent for an item is `E`, what a piece is
taken for is `D`. If a piece is taken for something only where a marked item begins, the
receiver gets what was sent exactly if every marked item is a piece of its own.

Places in the stream are named by what follows them.
-/
namespace SmartBell.Common

section Segments
variable {π β γ : Type} {bytes : π → List β} {E : π → List γ} {D : List β → List γ}

/-- What the items write. -/
def stream (bytes : π → List β) (items : List π) : List β := items.flatMap bytes

/-- A piece that means something begins where a marked item begins. -/
def Synchronised (bytes : π → List β) (E : π → List γ) (D : List β → List γ)
    (pieces : List (List β)) (items : List π) : Prop :=
  ∀ before piece after, pieces = before ++ piece :: after → D piece ≠ [] →
    ∃ earlier item later, items = earlier ++ item :: later ∧ E item ≠ [] ∧
      piece ++ after.flatten = bytes item ++ stream bytes later

/-- Every marked item is a piece of its own. -/
def InOwnPieces (bytes : π → List β) (E : π → List γ) (pieces : List (List β)) (items : List π) :
    Prop :=
  ∀ earlier item later, items = earlier ++ item :: later → E item ≠ [] →
    ∃ before after, pieces = before ++ bytes item :: after ∧ after.flatten = stream bytes later

/-- How the meaning of a piece relates to the item at whose place it begins. -/
structure Faithful (bytes : π → List β) (E : π → List γ) (D : List β → List γ) : Prop where
  bytes_ne_nil : ∀ item, bytes item ≠ []
  own : ∀ item, E item ≠ [] → D (bytes item) = E item
  length : ∀ piece item rest rest', D piece ≠ [] → E item ≠ [] →
    piece ++ rest = bytes item ++ rest' → (D piece).length = (E item).length
  exact : ∀ piece item rest rest', D piece ≠ [] → E item ≠ [] →
    piece ++ rest = bytes item ++ rest' → D piece = E item → piece = bytes item

@[simp] theorem stream_nil : stream bytes [] = [] := rfl

@[simp] theorem stream_cons (item : π) (items : List π) :
    stream bytes (item :: items) = bytes item ++ stream bytes items := rfl

@[simp] theorem stream_append (items later : List π) :
    stream bytes (items ++ later) = stream bytes items ++ stream bytes later :=
  List.flatMap_append

/-- Two places in a list: one is before the other, or they are the same. -/
theorem split_cases {earlier later earlier' later' : List π} {item item' : π}
    (h : earlier ++ item :: later = earlier' ++ item' :: later') :
    (∃ between, earlier = earlier' ++ item' :: between) ∨ (item = item' ∧ later = later') ∨
      ∃ between, later = between ++ item' :: later' := by
  rcases List.append_eq_append_iff.mp h with ⟨between, _, hlater⟩ | ⟨between, hearlier, hlater⟩
  · cases between with
    | nil => exact Or.inr (Or.inl (List.cons.inj hlater))
    | cons first between => exact Or.inr (Or.inr ⟨between, (List.cons.inj hlater).2⟩)
  · cases between with
    | nil =>
      obtain ⟨hitem, hlater⟩ := List.cons.inj hlater
      exact Or.inr (Or.inl ⟨hitem.symm, hlater.symm⟩)
    | cons first between =>
      obtain ⟨rfl, _⟩ := List.cons.inj hlater
      exact Or.inl ⟨between, hearlier⟩

/-- Of two places in the stream, the one with less behind it is the later one. -/
theorem later_of_length_lt {earlier later earlier' later' : List π} {item item' : π}
    (h : earlier ++ item :: later = earlier' ++ item' :: later')
    (hlt : (stream bytes (item' :: later')).length < (stream bytes (item :: later)).length) :
    ∃ between, later = between ++ item' :: later' := by
  rcases split_cases h with ⟨between, rfl⟩ | ⟨rfl, rfl⟩ | hlater
  · rw [List.append_assoc, List.cons_append] at h
    rw [← List.append_cancel_left h, ← List.cons_append, stream_append, List.length_append] at hlt
    omega
  · exact absurd hlt (lt_irrefl _)
  · exact hlater

theorem flatten_length {pieces before after : List (List β)} {piece : List β}
    (h : pieces = before ++ piece :: after) :
    pieces.flatten.length = before.flatten.length + piece.length + after.flatten.length := by
  rw [h, List.flatten_append, List.flatten_cons, List.length_append, List.length_append]
  omega

theorem Faithful.bytes_length_pos (hf : Faithful bytes E D) (item : π) :
    0 < (bytes item).length := List.length_pos_iff.mpr (hf.bytes_ne_nil item)

theorem Synchronised.tail {piece : List β} {pieces : List (List β)} {items : List π}
    (h : Synchronised bytes E D (piece :: pieces) items) : Synchronised bytes E D pieces items :=
  fun before _ after hsplit => h (piece :: before) _ after (by rw [hsplit, List.cons_append])

/-- Behind a piece at an item's place the stream stays synchronised with the later items. -/
theorem Synchronised.later {piece : List β} {pieces : List (List β)} {earlier later : List π}
    {item : π} (h : Synchronised bytes E D (piece :: pieces) (earlier ++ item :: later))
    (hne : piece ≠ []) (hplace : piece ++ pieces.flatten = bytes item ++ stream bytes later) :
    Synchronised bytes E D pieces later := by
  intro before piece' after hsplit hmeans
  obtain ⟨earlier', item', later', hitems, hmarked, hplace'⟩ :=
    h.tail before piece' after hsplit hmeans
  have hlt : (stream bytes (item' :: later')).length < (stream bytes (item :: later)).length := by
    rw [stream_cons, stream_cons, ← hplace, ← hplace', hsplit]
    have := List.length_pos_iff.mpr hne
    simp
    omega
  obtain ⟨between, rfl⟩ := later_of_length_lt hitems hlt
  exact ⟨between, item', later', rfl, hmarked, hplace'⟩

theorem InOwnPieces.later {pieces : List (List β)} {earlier later : List π} {item : π}
    (h : InOwnPieces bytes E pieces (earlier ++ item :: later)) :
    InOwnPieces bytes E pieces later := fun earlier' item' later' hitems =>
  h (earlier ++ item :: earlier') item' later' (by rw [hitems, List.append_assoc]; rfl)

/-- The receiver never gets more than was sent. -/
theorem Synchronised.length_le (hf : Faithful bytes E D) {pieces : List (List β)}
    {items : List π} (hne : ∀ piece ∈ pieces, piece ≠ [])
    (h : Synchronised bytes E D pieces items) :
    (pieces.flatMap D).length ≤ (items.flatMap E).length := by
  induction pieces generalizing items with
  | nil => simp
  | cons piece pieces ih =>
    have hrest := fun p hp => hne p (List.mem_cons_of_mem _ hp)
    by_cases hmeans : D piece = []
    · simpa [hmeans] using ih hrest h.tail
    · obtain ⟨earlier, item, later, rfl, hmarked, hplace⟩ := h [] piece pieces rfl hmeans
      have hlater := ih hrest (h.later (hne piece List.mem_cons_self) hplace)
      have hhere := hf.length piece item _ _ hmeans hmarked hplace
      simp only [List.flatMap_cons, List.flatMap_append, List.length_append, hhere]
      omega

/-- If all that was sent arrives, every marked item is a piece of its own. -/
theorem Synchronised.inOwnPieces (hf : Faithful bytes E D) {pieces : List (List β)}
    {items : List π} (hne : ∀ piece ∈ pieces, piece ≠ [])
    (h : Synchronised bytes E D pieces items) (heq : pieces.flatMap D = items.flatMap E) :
    InOwnPieces bytes E pieces items := by
  induction pieces generalizing items with
  | nil =>
    intro earlier item later hitems hmarked
    rw [hitems] at heq
    simp [hmarked] at heq
  | cons piece pieces ih =>
    have hrest := fun p hp => hne p (List.mem_cons_of_mem _ hp)
    by_cases hmeans : D piece = []
    · have htail := ih hrest h.tail (by simpa [hmeans] using heq)
      intro earlier item later hitems hmarked
      obtain ⟨before, after, hpieces, hafter⟩ := htail earlier item later hitems hmarked
      exact ⟨piece :: before, after, by rw [hpieces]; rfl, hafter⟩
    · obtain ⟨earlier, item, later, rfl, hmarked, hplace⟩ := h [] piece pieces rfl hmeans
      have hsync := h.later (hne piece List.mem_cons_self) hplace
      have hbound := hsync.length_le hf hrest
      have hhere := hf.length piece item _ _ hmeans hmarked hplace
      -- the lengths leave no room for anything sent before this item
      simp only [List.flatMap_cons, List.flatMap_append] at heq
      have hlength := congrArg List.length heq
      simp only [List.length_append] at hlength
      have hearlier : earlier.flatMap E = [] := List.eq_nil_of_length_eq_zero (by omega)
      rw [hearlier, List.nil_append] at heq
      obtain ⟨hpiece, hlater⟩ := List.append_inj heq hhere
      obtain rfl := hf.exact piece item _ _ hmeans hmarked hplace hpiece
      have hflat : pieces.flatten = stream bytes later := List.append_cancel_left hplace
      have htail := ih hrest hsync hlater
      intro earlier' item' later' hitems hmarked'
      rcases split_cases hitems with ⟨between, rfl⟩ | ⟨rfl, rfl⟩ | ⟨between, rfl⟩
      · simp [hmarked'] at hearlier
      · exact ⟨[], pieces, rfl, hflat⟩
      · obtain ⟨before, after, hpieces, hafter⟩ := htail between item' later' rfl hmarked'
        exact ⟨bytes item :: before, after, by rw [hpieces]; rfl, hafter⟩

/-- Where no piece is left, nothing marked is. -/
theorem InOwnPieces.flatMap_eq_nil {items : List π} (h : InOwnPieces bytes E [] items) :
    items.flatMap E = [] := by
  rw [List.flatMap_eq_nil_iff]
  intro item hmem
  by_contra hmarked
  obtain ⟨earlier, later, hitems⟩ := List.append_of_mem hmem
  obtain ⟨before, after, hpieces, _⟩ := h earlier item later hitems hmarked
  simp at hpieces

/-- A piece the receiver makes nothing of is no marked item. -/
theorem InOwnPieces.skip (hf : Faithful bytes E D) {piece : List β} {pieces : List (List β)}
    {items : List π} (h : InOwnPieces bytes E (piece :: pieces) items) (hmeans : D piece = []) :
    InOwnPieces bytes E pieces items := by
  intro earlier item later hitems hmarked
  obtain ⟨before, after, hpieces, hafter⟩ := h earlier item later hitems hmarked
  cases before with
  | nil =>
    obtain ⟨rfl, _⟩ := List.cons.inj hpieces
    exact absurd ((hf.own item hmarked).symm.trans hmeans) hmarked
  | cons first before => exact ⟨before, after, (List.cons.inj hpieces).2, hafter⟩

/-- Nothing marked lies before the item at whose place the stream begins. -/
theorem InOwnPieces.earlier_eq_nil (hf : Faithful bytes E D) {pieces : List (List β)}
    {earlier later : List π} {item : π}
    (h : InOwnPieces bytes E pieces (earlier ++ item :: later))
    (hplace : pieces.flatten = bytes item ++ stream bytes later) : earlier.flatMap E = [] := by
  rw [List.flatMap_eq_nil_iff]
  intro item' hmem
  by_contra hmarked
  obtain ⟨front, back, rfl⟩ := List.append_of_mem hmem
  obtain ⟨before, after, hpieces, hafter⟩ := h front item' (back ++ item :: later) (by simp) hmarked
  have hlength := flatten_length hpieces
  rw [hplace, hafter, stream_append, stream_cons] at hlength
  have hpos := hf.bytes_length_pos item'
  simp only [List.length_append] at hlength
  omega

/-- A marked item at whose place the stream begins is the first piece. -/
theorem InOwnPieces.first {piece : List β} {pieces : List (List β)} {earlier later : List π}
    {item : π} (h : InOwnPieces bytes E (piece :: pieces) (earlier ++ item :: later))
    (hne : piece ≠ []) (hplace : piece ++ pieces.flatten = bytes item ++ stream bytes later)
    (hmarked : E item ≠ []) : piece = bytes item ∧ pieces.flatten = stream bytes later := by
  obtain ⟨before, after, hpieces, hafter⟩ := h earlier item later rfl hmarked
  cases before with
  | nil =>
    obtain ⟨rfl, rfl⟩ := List.cons.inj hpieces
    exact ⟨rfl, hafter⟩
  | cons first before =>
    -- then more bytes than the item's own lie before the later items
    have hfirst := List.length_pos_iff.mpr hne
    have htotal := congrArg List.length hplace
    have hlength := flatten_length hpieces
    obtain ⟨rfl, _⟩ := List.cons.inj hpieces
    rw [hafter] at hlength
    simp only [List.flatten_cons, List.length_append] at htotal hlength
    omega

/-- Behind a piece that is an item of its own the later items have theirs. -/
theorem InOwnPieces.rest (hf : Faithful bytes E D) {piece : List β} {pieces : List (List β)}
    {earlier later : List π} {item : π}
    (h : InOwnPieces bytes E (piece :: pieces) (earlier ++ item :: later))
    (hflat : pieces.flatten = stream bytes later) : InOwnPieces bytes E pieces later := by
  intro front item' back hitems hmarked
  obtain ⟨before, after, hpieces, hafter⟩ := h.later front item' back hitems hmarked
  cases before with
  | nil =>
    obtain ⟨_, rfl⟩ := List.cons.inj hpieces
    have hlength := congrArg List.length (hflat.symm.trans hafter)
    rw [hitems, stream_append, stream_cons] at hlength
    have hpos := hf.bytes_length_pos item'
    simp only [List.length_append] at hlength
    omega
  | cons first before => exact ⟨before, after, (List.cons.inj hpieces).2, hafter⟩

/-- A marked item with a piece of its own is received before all pieces behind it. -/
theorem Synchronised.flatMap_eq (hf : Faithful bytes E D) {pieces : List (List β)}
    {items : List π} (hne : ∀ piece ∈ pieces, piece ≠ [])
    (h : Synchronised bytes E D pieces items) (hown : InOwnPieces bytes E pieces items) :
    pieces.flatMap D = items.flatMap E := by
  induction pieces generalizing items with
  | nil => rw [List.flatMap_nil, hown.flatMap_eq_nil]
  | cons piece pieces ih =>
    have hrest := fun p hp => hne p (List.mem_cons_of_mem _ hp)
    by_cases hmeans : D piece = []
    · simpa [hmeans] using ih hrest h.tail (hown.skip hf hmeans)
    · obtain ⟨earlier, item, later, rfl, hmarked, hplace⟩ := h [] piece pieces rfl hmeans
      have hpiece := hne piece List.mem_cons_self
      have hearlier : earlier.flatMap E = [] := hown.earlier_eq_nil hf hplace
      obtain ⟨rfl, hflat⟩ := hown.first hpiece hplace hmarked
      rw [List.flatMap_append, hearlier, List.flatMap_cons, List.flatMap_cons, List.nil_append,
        hf.own item hmarked, ih hrest (h.later hpiece hplace) (hown.rest hf hflat)]

/-- The receiver gets exactly what was sent if and only if every marked item is a piece of its
own. -/
theorem Synchronised.flatMap_eq_iff (hf : Faithful bytes E D) {pieces : List (List β)}
    {items : List π} (hne : ∀ piece ∈ pieces, piece ≠ [])
    (h : Synchronised bytes E D pieces items) :
    pieces.flatMap D = items.flatMap E ↔ InOwnPieces bytes E pieces items :=
  ⟨h.inOwnPieces hf hne, h.flatMap_eq hf hne⟩

end Segments
end SmartBell.Common
