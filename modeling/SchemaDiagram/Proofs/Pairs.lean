import Mathlib.Data.List.Forall2
import SchemaDiagram.Proofs.Results

/-!
Lists in pairs. What an operation makes of a list stands beside the list, member by member; what is done
to both sides alike, or left out on both, leaves them in pairs.
-/

set_option autoImplicit false

namespace SchemaDiagram

section Pairs

variable {α β γ δ : Type} {R : α → β → Prop} {S : γ → δ → Prop} {as : List α} {bs : List β}

theorem exists_of_mem_left (h : List.Forall₂ R as bs) {a : α} (ha : a ∈ as) : ∃ b ∈ bs, R a b := by
  induction h with
  | nil => cases ha
  | @cons x b as bs hx _ ih =>
    rcases List.mem_cons.mp ha with rfl | ha
    · exact ⟨b, List.mem_cons_self, hx⟩
    · obtain ⟨c, hc, hr⟩ := ih ha
      exact ⟨c, List.mem_cons_of_mem b hc, hr⟩

theorem exists_of_mem_right (h : List.Forall₂ R as bs) {b : β} (hb : b ∈ bs) : ∃ a ∈ as, R a b :=
  exists_of_mem_left h.flip hb

theorem forall₂_zipWith (h : List.Forall₂ R as bs) {f : α → β → γ} {g : β → δ}
    (each : ∀ a ∈ as, ∀ b ∈ bs, R a b → S (f a b) (g b)) :
    List.Forall₂ S (List.zipWith f as bs) (bs.map g) := by
  induction h with
  | nil => exact .nil
  | @cons a b as bs hab _ ih =>
    refine .cons (each a List.mem_cons_self b List.mem_cons_self hab) (ih fun x hx y hy => ?_)
    exact each x (List.mem_cons_of_mem a hx) y (List.mem_cons_of_mem b hy)

theorem zipWith_left (h : List.Forall₂ R as bs) (f : α → γ) :
    List.zipWith (fun a _ => f a) as bs = as.map f := by
  induction h with
  | nil => rfl
  | cons _ _ ih => rw [List.zipWith_cons_cons, ih, List.map_cons]

theorem forall₂_map (h : List.Forall₂ R as bs) {f : α → γ} {g : β → δ}
    (each : ∀ a ∈ as, ∀ b ∈ bs, R a b → S (f a) (g b)) :
    List.Forall₂ S (as.map f) (bs.map g) := by
  rw [← zipWith_left h f]
  exact forall₂_zipWith h each

theorem filter_map_of {f : α → β} {p : β → Bool} {q : α → Bool} (same : ∀ a ∈ as, p (f a) = q a) :
    (as.map f).filter p = (as.filter q).map f := by
  rw [List.filter_map]
  exact congrArg (List.map f) (List.filter_congr same)

theorem forall₂_filter (h : List.Forall₂ R as bs) {p : α → Bool} {q : β → Bool}
    (each : ∀ a ∈ as, ∀ b ∈ bs, R a b → p a = q b) :
    List.Forall₂ R (as.filter p) (bs.filter q) := by
  induction h with
  | nil => exact .nil
  | @cons a b as bs hab _ ih =>
    have same := each a List.mem_cons_self b List.mem_cons_self hab
    have rest := ih fun x hx y hy => each x (List.mem_cons_of_mem a hx) y (List.mem_cons_of_mem b hy)
    by_cases kept : q b = true
    · rw [List.filter_cons_of_pos (same.trans kept), List.filter_cons_of_pos kept]
      exact .cons hab rest
    · rw [List.filter_cons_of_neg (same ▸ kept), List.filter_cons_of_neg kept]
      exact rest

theorem Result.mapM_ok {g : α → Result β} :
    as.mapM g = .ok bs ↔ List.Forall₂ (fun b a => g a = .ok b) bs as := by
  constructor
  · intro h
    induction as generalizing bs with
    | nil =>
      cases h
      exact .nil
    | cons a rest ih =>
      rw [List.mapM_cons] at h
      obtain ⟨b, hb, h⟩ := bind_ok h
      obtain ⟨cs, hcs, h⟩ := bind_ok h
      cases h
      exact .cons hb (ih hcs)
  · intro h
    induction h with
    | nil => rfl
    | cons hb _ ih =>
      rw [List.mapM_cons, hb, ih]
      rfl

theorem Result.exists_mapM_ok {g : α → Result β} : (∃ bs, as.mapM g = .ok bs) ↔ ∀ a ∈ as, ∃ b, g a = .ok b := by
  constructor
  · rintro ⟨bs, h⟩ a ha
    obtain ⟨b, -, made⟩ := exists_of_mem_right (mapM_ok.mp h) ha
    exact ⟨b, made⟩
  · intro h
    induction as with
    | nil => exact ⟨[], rfl⟩
    | cons a rest ih =>
      obtain ⟨⟨b, hb⟩, later⟩ := List.forall_mem_cons.mp h
      obtain ⟨bs, hbs⟩ := ih later
      exact ⟨b :: bs, by rw [List.mapM_cons, hb, hbs]; rfl⟩

end Pairs

end SchemaDiagram
