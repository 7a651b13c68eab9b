import Mathlib.Data.List.Forall2

/-!
# Lists side by side

Two lists correspond when their items are related one to one, in order. What follows for related items
follows for the lists: of their images, of their members, and of lists of pairs part by part.
-/
namespace StyledTiles

variable {α β γ δ : Type}

/-- What agrees on related items agrees on related lists, item by item. -/
theorem map_eq_of_forall₂ {R : α → β → Prop} {g : α → γ} {g' : β → γ} {as : List α}
    {bs : List β} (h : List.Forall₂ R as bs) (agree : ∀ a b, R a b → g' b = g a) :
    bs.map g' = as.map g := by
  induction h with
  | nil => rfl
  | cons head _ ih => rw [List.map_cons, List.map_cons, agree _ _ head, ih]

/-- Each item of the first list has its partner in the second. -/
theorem exists_partner {R : α → β → Prop} {as : List α} {bs : List β} (h : List.Forall₂ R as bs) :
    ∀ a ∈ as, ∃ b ∈ bs, R a b := by
  induction h with
  | nil => simp
  | cons head _ ih =>
    refine List.forall_mem_cons.mpr ⟨⟨_, List.mem_cons_self, head⟩, fun a ha => ?_⟩
    obtain ⟨b, hb, hab⟩ := ih a ha
    exact ⟨b, List.mem_cons_of_mem _ hb, hab⟩

theorem exists_partner_right {R : α → β → Prop} {as : List α} {bs : List β}
    (h : List.Forall₂ R as bs) : ∀ b ∈ bs, ∃ a ∈ as, R a b := exists_partner h.flip

theorem forall_mem_of_forall₂ {R : α → β → Prop} {P : β → Prop} {as : List α} {bs : List β}
    (h : List.Forall₂ R as bs) (holds : ∀ a b, R a b → P b) : ∀ b ∈ bs, P b := by
  intro b hb
  obtain ⟨a, _, hab⟩ := exists_partner_right h b hb
  exact holds a b hab

/-- Lists of pairs that are related part by part are related pair by pair. -/
theorem forall₂_of_parts {R : α → γ → Prop} {S : β → δ → Prop} {as : List (α × β)}
    {bs : List (γ × δ)} (hfst : List.Forall₂ R (as.map Prod.fst) (bs.map Prod.fst))
    (hsnd : List.Forall₂ S (as.map Prod.snd) (bs.map Prod.snd)) :
    List.Forall₂ (fun a b => R a.1 b.1 ∧ S a.2 b.2) as bs := by
  rw [List.forall₂_map_left_iff, List.forall₂_map_right_iff] at hfst hsnd
  exact List.Forall₂.mp (fun _ _ hr hs => ⟨hr, hs⟩) hfst hsnd

/-- What follows for the members of the first list follows along the list. -/
theorem forall₂_imp_of_mem {R S : α → β → Prop} {as : List α} {bs : List β}
    (h : List.Forall₂ R as bs) (himp : ∀ a ∈ as, ∀ b, R a b → S a b) : List.Forall₂ S as bs :=
  ((List.forall₂_and_left _ _).mpr ⟨himp, h⟩).imp fun _ b h => h.1 b h.2

end StyledTiles
