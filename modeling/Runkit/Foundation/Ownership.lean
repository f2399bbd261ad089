/-
  Foundation/Ownership.lean --- things that are held by one holder each.

  Whatever is open is held by one holder, so that it is not forgotten, and no two
  holders hold the same thing.  Taking, releasing and passing on keep this up.  Hence
  no more things are open than there are holders (`Ownership.card_le`), and none are
  once every holder has let go.
-/
import Mathlib.Data.Finset.Card
import Mathlib.Data.Fintype.Card
import Mathlib.Logic.Function.Basic

set_option autoImplicit false

namespace Runkit.Foundation

variable {G T : Type} {isOpen isOpen' : T → Prop} {held : G → Option T} {g g' : G} {t : T}

/-- Everything that is open is held, and nothing is held twice. -/
structure Ownership (isOpen : T → Prop) (held : G → Option T) : Prop where
  owned : ∀ t, isOpen t → ∃ g, held g = some t
  unique : ∀ g g' t, held g = some t → held g' = some t → g = g'

namespace Ownership

/-- Something may end without its holder knowing of it. -/
theorem mono (h : Ownership isOpen held) (hopen : ∀ t, isOpen' t → isOpen t) :
    Ownership isOpen' held :=
  ⟨fun t ht => h.owned t (hopen t ht), h.unique⟩

variable [DecidableEq G]

/-- Something new is held by one who held nothing. -/
theorem take (h : Ownership isOpen held) (hidle : held g = none)
    (hnew : ∀ g', held g' ≠ some t) (hopen : ∀ t', isOpen' t' → t' = t ∨ isOpen t') :
    Ownership isOpen' (Function.update held g (some t)) where
  owned := by
    intro t' ht'
    rcases hopen t' ht' with rfl | hold
    · exact ⟨g, Function.update_self ..⟩
    · obtain ⟨g', hg'⟩ := h.owned t' hold
      have hne : g' ≠ g := by
        rintro rfl
        rw [hidle] at hg'
        cases hg'
      exact ⟨g', by rw [Function.update_of_ne hne, hg']⟩
  unique := by
    intro g₁ g₂ t' h₁ h₂
    by_cases he₁ : g₁ = g
    · subst he₁
      by_cases he₂ : g₂ = g₁
      · exact he₂.symm
      · rw [Function.update_self] at h₁
        rw [Function.update_of_ne he₂, ← h₁] at h₂
        exact absurd h₂ (hnew g₂)
    · rw [Function.update_of_ne he₁] at h₁
      by_cases he₂ : g₂ = g
      · subst he₂
        rw [Function.update_self] at h₂
        rw [← h₂] at h₁
        exact absurd h₁ (hnew g₁)
      · rw [Function.update_of_ne he₂] at h₂
        exact h.unique g₁ g₂ t' h₁ h₂

/-- A holder lets go of something that is no longer open. -/
theorem release (h : Ownership isOpen held)
    (hopen : ∀ t', isOpen' t' → isOpen t' ∧ held g ≠ some t') :
    Ownership isOpen' (Function.update held g none) where
  owned := by
    intro t' ht'
    obtain ⟨hold, hne⟩ := hopen t' ht'
    obtain ⟨g', hg'⟩ := h.owned t' hold
    have hne' : g' ≠ g := by
      rintro rfl
      exact hne hg'
    exact ⟨g', by rw [Function.update_of_ne hne', hg']⟩
  unique := by
    intro g₁ g₂ t' h₁ h₂
    have hheld : ∀ {g' : G}, Function.update held g none g' = some t' → held g' = some t' := by
      intro g' hg'
      by_cases heq : g' = g
      · rw [heq, Function.update_self] at hg'
        cases hg'
      · rwa [Function.update_of_ne heq] at hg'
    exact h.unique g₁ g₂ t' (hheld h₁) (hheld h₂)

/-- One holder passes on what it holds to another one, who held nothing. -/
theorem pass (h : Ownership isOpen held) (hfrom : held g = some t) (hto : held g' = none) :
    Ownership isOpen (Function.update (Function.update held g none) g' (some t)) := by
  have hne : g' ≠ g := by
    rintro rfl
    rw [hfrom] at hto
    cases hto
  have hrest : Ownership (fun t' => isOpen t' ∧ t' ≠ t) (Function.update held g none) := by
    apply h.release
    intro t' ht'
    refine ⟨ht'.1, ?_⟩
    rw [hfrom]
    exact fun heq => ht'.2 (Option.some.inj heq).symm
  refine hrest.take (by rwa [Function.update_of_ne hne]) ?_ ?_
  · intro g'' hg''
    by_cases heq : g'' = g
    · rw [heq, Function.update_self] at hg''
      cases hg''
    · rw [Function.update_of_ne heq] at hg''
      exact heq (h.unique g'' g t hg'' hfrom)
  · intro t' ht'
    by_cases heq : t' = t
    · exact Or.inl heq
    · exact Or.inr ⟨ht', heq⟩

omit [DecidableEq G] in
/-- No more things are open than there are holders. -/
theorem card_le [Fintype G] (h : Ownership isOpen held) (ts : Finset T)
    (hopen : ∀ t ∈ ts, isOpen t) : ts.card ≤ Fintype.card G := by
  classical
  have hheld : ts.map Function.Embedding.some ⊆ Finset.univ.image held := by
    intro v hv
    obtain ⟨t, ht, rfl⟩ := Finset.mem_map.mp hv
    obtain ⟨g, hg⟩ := h.owned t (hopen t ht)
    exact Finset.mem_image.mpr ⟨g, Finset.mem_univ g, hg⟩
  calc ts.card = (ts.map Function.Embedding.some).card := (Finset.card_map _).symm
    _ ≤ (Finset.univ.image held).card := Finset.card_le_card hheld
    _ ≤ Fintype.card G := Finset.card_image_le

omit [DecidableEq G] in
/-- Nothing is open once nothing is held. -/
theorem not_open (h : Ownership isOpen held) (hidle : ∀ g, held g = none) (t : T) :
    ¬ isOpen t := by
  intro ht
  obtain ⟨g, hg⟩ := h.owned t ht
  rw [hidle g] at hg
  cases hg

end Ownership

end Runkit.Foundation
