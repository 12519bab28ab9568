import Mathlib.Data.List.Basic
import Mathlib.Data.List.Infix

namespace BitPark.SelfDelimiting

/-! Codes whose words end where they say. -/

variable {α β : Type}

/-- Where a word of the code ends is known whatever comes behind it. -/
def Delimited (P : α → Prop) (code : α → List β) : Prop :=
  ∀ a b u v, P a → P b → code a ++ u = code b ++ v → a = b ∧ u = v

/-- A text that ends with a separator it does not contain. -/
theorem separated_inj (sep : β) (s t u v : List β) (hs : sep ∉ s) (ht : sep ∉ t) (h : s ++ sep :: u = t ++ sep :: v) :
    s = t ∧ u = v := by
  induction s generalizing t with
  | nil =>
    cases t with
    | nil => exact ⟨rfl, (List.cons.inj h).2⟩
    | cons c t => exact absurd ((List.cons.inj h).1 ▸ List.mem_cons_self) ht
  | cons c s ih =>
    cases t with
    | nil => exact absurd ((List.cons.inj h).1 ▸ List.mem_cons_self) hs
    | cons d t =>
      obtain ⟨rfl, hrest⟩ := List.cons.inj h
      obtain ⟨rfl, huv⟩ := ih t (fun hm => hs (List.mem_cons_of_mem c hm)) (fun hm => ht (List.mem_cons_of_mem c hm)) hrest
      exact ⟨rfl, huv⟩

/-- A stream of words can be read in one way only, and so can every beginning of it. -/
theorem flatMap_prefix_iff (P : α → Prop) (code : α → List β) (h : Delimited P code) (hne : ∀ a, code a ≠ [])
    (as bs : List α) (has : ∀ a ∈ as, P a) (hbs : ∀ b ∈ bs, P b) :
    as.flatMap code <+: bs.flatMap code ↔ as <+: bs := by
  constructor
  · intro hprefix
    induction as generalizing bs with
    | nil => exact List.nil_prefix
    | cons a as ih =>
      obtain ⟨ha, has⟩ := List.forall_mem_cons.mp has
      obtain ⟨t, ht⟩ := hprefix
      rw [List.flatMap_cons, List.append_assoc] at ht
      cases bs with
      | nil => exact absurd (List.append_eq_nil_iff.mp ht).1 (hne a)
      | cons b bs =>
        obtain ⟨hb, hrest⟩ := List.forall_mem_cons.mp hbs
        obtain ⟨hab, htail⟩ := h a b _ _ ha hb ht
        exact List.cons_prefix_cons.mpr ⟨hab, ih bs has hrest ⟨t, htail⟩⟩
  · rintro ⟨t, rfl⟩
    rw [List.flatMap_append]
    exact List.prefix_append _ _

end BitPark.SelfDelimiting
