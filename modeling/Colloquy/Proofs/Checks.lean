import Colloquy.Distinct
import Mathlib.Data.List.Forall2
import Mathlib.Data.List.Nodup

/-!
Chains of checks: what the success of a chain says of its links, and what it says of a list that
repetition was looked for.
-/

namespace Colloquy

section

variable {ε α β : Type}

theorem bind_ok_iff {x : Except ε α} {f : α → Except ε β} {b : β} :
    (x >>= f) = .ok b ↔ ∃ a, x = .ok a ∧ f a = .ok b := by
  cases x with
  | error e =>
    constructor
    · intro h; cases h
    · rintro ⟨a, h, _⟩; cases h
  | ok a =>
    constructor
    · intro h; exact ⟨a, rfl, h⟩
    · rintro ⟨_, ⟨⟩, h⟩; exact h

theorem bind_error_iff {x : Except ε α} {f : α → Except ε β} {e : ε} :
    (x >>= f) = .error e ↔ x = .error e ∨ ∃ a, x = .ok a ∧ f a = .error e := by
  cases x with
  | error d => simp [bind, Except.bind]
  | ok a => simp [bind, Except.bind]

theorem mapError_error_iff {δ : Type} {x : Except ε α} {f : ε → δ} {d : δ} :
    x.mapError f = .error d ↔ ∃ e, x = .error e ∧ f e = d := by
  cases x <;> simp [Except.mapError]

theorem mapError_ok_iff {δ : Type} {x : Except ε α} {f : ε → δ} {a : α} :
    x.mapError f = .ok a ↔ x = .ok a := by
  cases x <;> simp [Except.mapError]

theorem refuse_ok_iff {refused : Bool} {e : ε} {rest : Except ε α} {a : α} :
    (if refused = true then (throw e : Except ε PUnit) >>= fun _ => rest else rest) = .ok a ↔
      refused = false ∧ rest = .ok a := by
  cases refused with
  | false => simp
  | true => simp [throw, throwThe, MonadExceptOf.throw, bind, Except.bind]

theorem forM_ok_iff {f : α → Except ε Unit} {xs : List α} :
    xs.forM f = .ok () ↔ ∀ x ∈ xs, f x = .ok () := by
  induction xs with
  | nil => simp [pure, Except.pure]
  | cons x rest ih =>
    rw [List.forM_eq_forM] at ih ⊢
    rw [List.forM_cons, bind_ok_iff, List.forall_mem_cons, ← ih]
    exact ⟨fun ⟨_, head, tail⟩ => ⟨head, tail⟩, fun ⟨head, tail⟩ => ⟨(), head, tail⟩⟩

theorem mapM_some_length {f : α → Option β} {xs : List α} {ys : List β}
    (all : xs.mapM f = some ys) : ys.length = xs.length := by
  induction xs generalizing ys with
  | nil =>
    cases all
    rfl
  | cons x rest ih =>
    rw [List.mapM_cons] at all
    obtain ⟨y, -, tail⟩ := Option.bind_eq_some_iff.mp all
    obtain ⟨zs, last, same⟩ := Option.bind_eq_some_iff.mp tail
    cases same
    rw [List.length_cons, List.length_cons, ih last]

theorem mapM_ok_iff {f : α → Except ε β} {xs : List α} {ys : List β} :
    xs.mapM f = .ok ys ↔ List.Forall₂ (fun x y => f x = .ok y) xs ys := by
  induction xs generalizing ys with
  | nil =>
    rw [List.mapM_nil, List.forall₂_nil_left_iff]
    simp [pure, Except.pure, eq_comm]
  | cons x rest ih =>
    rw [List.mapM_cons, bind_ok_iff]
    constructor
    · rintro ⟨y, head, tail⟩
      obtain ⟨zs, last, whole⟩ := bind_ok_iff.mp tail
      cases whole
      exact .cons head (ih.mp last)
    · intro pairs
      cases pairs with
      | cons head tail => exact ⟨_, head, bind_ok_iff.mpr ⟨_, ih.mpr tail, rfl⟩⟩

end

section

variable {α β γ : Type} {R : α → β → Prop} {S : β → γ → Prop}

theorem forall₂_exists {xs : List α} (each : ∀ x ∈ xs, ∃ y, R x y) :
    ∃ ys, List.Forall₂ R xs ys := by
  induction xs with
  | nil => exact ⟨[], .nil⟩
  | cons x rest ih =>
    obtain ⟨y, head⟩ := each x List.mem_cons_self
    obtain ⟨ys, tail⟩ := ih fun z member => each z (List.mem_cons_of_mem _ member)
    exact ⟨y :: ys, .cons head tail⟩

theorem forall₂_transfer {T : α → γ → Prop} {xs : List α} {ys : List β} {zs : List γ}
    (pairs : List.Forall₂ R xs ys) (same : ∀ x ∈ xs, ∀ y, R x y → ∀ z, S y z ↔ T x z) :
    List.Forall₂ S ys zs ↔ List.Forall₂ T xs zs := by
  induction pairs generalizing zs with
  | nil => simp only [List.forall₂_nil_left_iff]
  | cons head tail ih =>
    have rest := fun z member => same z (List.mem_cons_of_mem _ member)
    simp only [List.forall₂_cons_left_iff, same _ List.mem_cons_self _ head, ih rest]

theorem forall₂_right_of_mem {xs : List α} {ys : List β} (pairs : List.Forall₂ R xs ys) {x : α}
    (member : x ∈ xs) : ∃ y ∈ ys, R x y := by
  induction pairs with
  | nil => cases member
  | @cons a b as bs head tail ih =>
    rcases List.mem_cons.mp member with rfl | later
    · exact ⟨b, List.mem_cons_self, head⟩
    · obtain ⟨y, found, related⟩ := ih later
      exact ⟨y, List.mem_cons_of_mem _ found, related⟩

theorem forall₂_left_of_mem {xs : List α} {ys : List β} (pairs : List.Forall₂ R xs ys) {y : β}
    (member : y ∈ ys) : ∃ x ∈ xs, R x y :=
  forall₂_right_of_mem (R := flip R) pairs.flip member

theorem forall₂_map_eq {δ : Type} {xs : List α} {ys : List β} (f : α → δ) (g : β → δ)
    (pairs : List.Forall₂ R xs ys) (same : ∀ x y, R x y → g y = f x) : ys.map g = xs.map f := by
  induction pairs with
  | nil => rfl
  | cons head tail ih => rw [List.map_cons, List.map_cons, same _ _ head, ih]

end

section

variable {α : Type}

theorem eq_singleton_iff_of_nodup {xs : List α} (distinct : xs.Nodup) (a : α) :
    xs = [a] ↔ ∀ b, b ∈ xs ↔ b = a := by
  rw [← List.perm_singleton, List.perm_ext_iff_of_nodup distinct (List.nodup_singleton a)]
  simp only [List.mem_singleton]

theorem exists_found {p : α → Bool} {xs : List α} {a : α} (member : a ∈ xs) (holds : p a = true) :
    ∃ b ∈ xs, xs.find? p = some b ∧ p b = true := by
  have there : (xs.find? p).isSome := List.find?_isSome.mpr ⟨a, member, holds⟩
  obtain ⟨b, found⟩ := Option.isSome_iff_exists.mp there
  exact ⟨b, List.mem_of_find?_eq_some found, found, List.find?_some found⟩

theorem find_of_nodup {κ : Type} [BEq κ] [LawfulBEq κ] {key : α → κ} {xs : List α}
    (distinct : (xs.map key).Nodup) {a : α} (member : a ∈ xs) :
    xs.find? (key · == key a) = some a := by
  obtain ⟨b, listed, found, same⟩ :=
    exists_found (p := (key · == key a)) member (beq_self_eq_true (key a))
  rw [found, List.inj_on_of_nodup_map distinct listed member (beq_iff_eq.mp same)]

theorem forall_place_cons {holds : List α → α → Prop} {a : α} {xs : List α}
    (head : holds [] a)
    (tail : ∀ earlier x later, xs = earlier ++ x :: later → holds (a :: earlier) x) :
    ∀ earlier x later, a :: xs = earlier ++ x :: later → holds earlier x := by
  intro earlier x later split
  cases earlier with
  | nil =>
    cases split
    exact head
  | cons first earlier =>
    cases split
    exact tail earlier x later rfl

theorem filterMap_cons_toList {β : Type} (f : α → Option β) (a : α) (xs : List α) :
    (a :: xs).filterMap f = (f a).toList ++ xs.filterMap f := by
  cases found : f a <;> simp [found]

theorem firstRepeated_eq_none_iff [DecidableEq α] {seen xs : List α} :
    firstRepeated? seen xs = none ↔ xs.Nodup ∧ ∀ x ∈ xs, x ∉ seen := by
  induction xs generalizing seen with
  | nil => simp [firstRepeated?]
  | cons x rest ih =>
    by_cases repeated : x ∈ seen
    · simp [firstRepeated?, repeated]
    · rw [firstRepeated?, if_neg repeated, ih, List.nodup_cons, List.forall_mem_cons]
      constructor
      · rintro ⟨distinct, fresh⟩
        refine ⟨⟨?_, distinct⟩, repeated, ?_⟩
        · intro again
          exact fresh x again List.mem_cons_self
        · intro y member
          exact List.not_mem_of_not_mem_cons (fresh y member)
      · rintro ⟨⟨fresh, distinct⟩, -, unseen⟩
        refine ⟨distinct, fun y member => List.not_mem_cons_of_ne_of_not_mem ?_ (unseen y member)⟩
        rintro rfl
        exact fresh member

end

end Colloquy
