import Mathlib.Data.List.Forall2
import Mosaic.Outcome

/-!
# Results of computations that may stop

A sequence of computations has a result when each of them has one, in turn. A run over a list keeps
whatever one step keeps (`foldlM_ok`), and a run that fails does so in one of its steps
(`foldlM_error`). Two sequences that differ in a few places end alike where each of their steps does
(`EndsAlike.bind`).
-/

namespace Mosaic

section Except

variable {ε α β : Type}

theorem ok_bind (a : α) (f : α → Except ε β) : Except.ok a >>= f = f a := rfl

theorem bind_eq_ok {x : Except ε α} {f : α → Except ε β} {b : β} :
    x >>= f = .ok b ↔ ∃ a, x = .ok a ∧ f a = .ok b := by
  constructor
  · intro h
    cases x with
    | error e => cases h
    | ok a => exact ⟨a, rfl, h⟩
  · rintro ⟨a, rfl, h⟩
    exact h

theorem bind_eq_error {x : Except ε α} {f : α → Except ε β} {e : ε} :
    x >>= f = .error e ↔ x = .error e ∨ ∃ a, x = .ok a ∧ f a = .error e := by
  constructor
  · intro h
    cases x with
    | error e' =>
      cases h
      exact .inl rfl
    | ok a => exact .inr ⟨a, rfl, h⟩
  · rintro (rfl | ⟨a, rfl, h⟩)
    · rfl
    · exact h

theorem map_eq_ok {f : α → β} {x : Except ε α} {b : β} :
    x.map f = .ok b ↔ ∃ a, x = .ok a ∧ f a = b := by
  cases x with
  | error e => exact iff_of_false nofun nofun
  | ok a => exact ⟨fun h => ⟨a, rfl, by cases h; rfl⟩, by rintro ⟨a, h, rfl⟩; cases h; rfl⟩

theorem map_eq_error {f : α → β} {x : Except ε α} {e : ε} :
    x.map f = .error e ↔ x = .error e := by
  cases x with
  | error e' => exact ⟨fun h => by cases h; rfl, fun h => by cases h; rfl⟩
  | ok a => exact iff_of_false nofun nofun

theorem ite_eq_ok {p : Prop} [Decidable p] {a b : α} {e : ε} :
    (if p then .ok a else .error e) = Except.ok b ↔ p ∧ b = a := by
  split
  · next h => exact ⟨fun heq => ⟨h, (Except.ok.inj heq).symm⟩, fun heq => congrArg _ heq.2.symm⟩
  · next h => exact iff_of_false nofun fun hboth => h hboth.1

/-- A test of a result that succeeds says that there is a result. -/
theorem exists_ok_of_test (x : Except ε α) (test : α → Bool)
    (h : (match x with | .ok a => test a | .error _ => false) = true) :
    ∃ a, x = .ok a ∧ test a = true := by
  cases x with
  | error e => cases h
  | ok a => exact ⟨a, rfl, h⟩

/-- A computation with a closed result is tested for it. -/
theorem eq_ok_of_test [DecidableEq α] {x : Except ε α} {b : α}
    (h : (match x with | .ok a => decide (a = b) | .error _ => false) = true) : x = .ok b := by
  obtain ⟨a, ha, htest⟩ := exists_ok_of_test x (fun a => decide (a = b)) h
  rw [ha, of_decide_eq_true htest]

/-- What holds of the start and of an empty list, and is kept by every step, holds of the result and
of the whole list. -/
theorem foldlM_ok {f : β → α → Except ε β} (invariant : List α → β → Prop)
    (step : ∀ done b a b', invariant done b → f b a = .ok b' → invariant (done ++ [a]) b')
    {l : List α} {start result : β} (hstart : invariant [] start)
    (h : l.foldlM f start = .ok result) : invariant l result := by
  suffices general : ∀ done b, invariant done b → l.foldlM f b = .ok result →
      invariant (done ++ l) result from general [] start hstart h
  clear hstart h
  induction l with
  | nil =>
    intro done b hb h
    cases h
    rwa [List.append_nil]
  | cons a rest ih =>
    intro done b hb h
    rw [List.foldlM_cons, bind_eq_ok] at h
    obtain ⟨b', hb', hrest⟩ := h
    have := ih (done ++ [a]) b' (step done b a b' hb hb') hrest
    rwa [List.append_assoc] at this

/-- Where a step fails for the element that it is given, whatever came before it, a run fails as it
does for the first such element. -/
theorem foldlM_eq_error_iff {f : β → α → Except ε β} {stops : α → Option ε}
    (step : ∀ b a e, f b a = .error e ↔ stops a = some e) {l : List α} {start : β} {e : ε} :
    l.foldlM f start = .error e ↔ l.findSome? stops = some e := by
  induction l generalizing start with
  | nil => exact iff_of_false nofun nofun
  | cons a rest ih =>
    rw [List.foldlM_cons, bind_eq_error, step, List.findSome?_cons]
    cases hstops : stops a with
    | some e' =>
      refine or_iff_left ?_
      rintro ⟨b, hb, -⟩
      rw [(step start a e').mpr hstops] at hb
      cases hb
    | none =>
      cases hb : f start a with
      | error e' =>
        rw [(step start a e').mp hb] at hstops
        cases hstops
      | ok b => simpa using ih

theorem mapM_cons_ok {f : α → Except ε β} {a : α} {rest : List α} {result : List β} :
    (a :: rest).mapM f = .ok result ↔
      ∃ b bs, f a = .ok b ∧ rest.mapM f = .ok bs ∧ result = b :: bs := by
  rw [List.mapM_cons, bind_eq_ok]
  constructor
  · rintro ⟨b, hb, h⟩
    obtain ⟨bs, hbs, h⟩ := bind_eq_ok.mp h
    cases h
    exact ⟨b, bs, hb, hbs, rfl⟩
  · rintro ⟨b, bs, hb, hbs, rfl⟩
    exact ⟨b, hb, bind_eq_ok.mpr ⟨bs, hbs, rfl⟩⟩

/-- A computation over a list has the results that it has on its elements, each in its place. -/
theorem mapM_eq_ok {f : α → Except ε β} {l : List α} {bs : List β} :
    l.mapM f = .ok bs ↔ List.Forall₂ (fun a b => f a = .ok b) l bs := by
  induction l generalizing bs with
  | nil =>
    rw [List.forall₂_nil_left_iff]
    exact ⟨fun h => (Except.ok.inj h).symm, fun h => congrArg Except.ok h.symm⟩
  | cons a rest ih =>
    rw [mapM_cons_ok, List.forall₂_cons_left_iff]
    constructor
    · rintro ⟨b, bs, hb, hbs, rfl⟩
      exact ⟨b, bs, hb, ih.mp hbs, rfl⟩
    · rintro ⟨b, bs, hb, hbs, rfl⟩
      exact ⟨b, bs, hb, ih.mpr hbs, rfl⟩

theorem length_of_mapM {f : α → Except ε β} {l : List α} {bs : List β}
    (h : l.mapM f = .ok bs) : bs.length = l.length := by
  induction l generalizing bs with
  | nil =>
    cases h
    rfl
  | cons a rest ih =>
    obtain ⟨b, bs, -, hbs, rfl⟩ := mapM_cons_ok.mp h
    exact congrArg Nat.succ (ih hbs)

/-- A computation over a list has a result exactly when it has one on every element. -/
theorem exists_mapM_ok {f : α → Except ε β} {l : List α} :
    (∃ bs, l.mapM f = .ok bs) ↔ ∀ a ∈ l, ∃ b, f a = .ok b := by
  induction l with
  | nil => exact iff_of_true ⟨[], rfl⟩ nofun
  | cons a rest ih =>
    rw [List.forall_mem_cons, ← ih]
    constructor
    · rintro ⟨_, h⟩
      obtain ⟨b, bs, hb, hbs, -⟩ := mapM_cons_ok.mp h
      exact ⟨⟨b, hb⟩, bs, hbs⟩
    · rintro ⟨⟨b, hb⟩, bs, hbs⟩
      exact ⟨_, mapM_cons_ok.mpr ⟨b, bs, hb, hbs, rfl⟩⟩

/-- A computation over a list gives the list back exactly when it gives every element back. -/
theorem mapM_eq_self {f : α → Except ε α} {l : List α} :
    l.mapM f = .ok l ↔ ∀ a ∈ l, f a = .ok a := by
  induction l with
  | nil => exact iff_of_true rfl nofun
  | cons a rest ih =>
    rw [List.forall_mem_cons, ← ih, mapM_cons_ok]
    constructor
    · rintro ⟨b, bs, hb, hbs, heq⟩
      obtain ⟨rfl, rfl⟩ := List.cons.inj heq
      exact ⟨hb, hbs⟩
    · exact fun h => ⟨a, rest, h.1, h.2, rfl⟩

theorem mapM_error {f : α → Except ε β} {l : List α} {e : ε} (h : l.mapM f = .error e) :
    ∃ a ∈ l, f a = .error e := by
  induction l with
  | nil => cases h
  | cons a rest ih =>
    rw [List.mapM_cons, bind_eq_error] at h
    rcases h with h | ⟨b, -, h⟩
    · exact ⟨a, List.mem_cons_self, h⟩
    · rcases bind_eq_error.mp h with h | ⟨bs, -, h⟩
      · obtain ⟨a', ha', he⟩ := ih h
        exact ⟨a', List.mem_cons_of_mem a ha', he⟩
      · cases h

end Except

/-! ## Two computations -/

/-- Two computations end in the same error, or in results that are related. -/
inductive EndsAlike {ε α β : Type} (R : α → β → Prop) : Except ε α → Except ε β → Prop
  | ok {a : α} {b : β} (h : R a b) : EndsAlike R (.ok a) (.ok b)
  | error (e : ε) : EndsAlike R (.error e) (.error e)

namespace EndsAlike

variable {ε α β γ δ : Type} {R : α → β → Prop} {S : γ → δ → Prop} {x : Except ε α} {y : Except ε β}

theorem refl (x : Except ε α) : EndsAlike Eq x x := by
  cases x with
  | ok a => exact .ok rfl
  | error e => exact .error e

theorem bind (h : EndsAlike R x y) {f : α → Except ε γ} {g : β → Except ε δ}
    (hnext : ∀ a b, R a b → EndsAlike S (f a) (g b)) : EndsAlike S (x >>= f) (y >>= g) := by
  cases h with
  | ok h => exact hnext _ _ h
  | error e => exact .error e

/-- Computations that begin alike end alike. -/
theorem after (x : Except ε α) {f : α → Except ε γ} {g : α → Except ε δ}
    (hnext : ∀ a, EndsAlike S (f a) (g a)) : EndsAlike S (x >>= f) (x >>= g) :=
  (refl x).bind fun a _ hab => hab ▸ hnext a

end EndsAlike

namespace Stop

variable {ε δ α : Type}

theorem liftAbort_eq_ok {x : Except Abort α} {a : α} :
    liftAbort (ε := ε) x = .ok a ↔ x = .ok a := by
  cases x with
  | error cause => exact ⟨nofun, nofun⟩
  | ok b => exact ⟨fun h => by cases h; rfl, fun h => by cases h; rfl⟩

theorem liftError_ne_aborted {x : Except ε α} {cause : Abort} :
    liftError x ≠ .error (.aborted cause) := by
  cases x <;> nofun

theorem liftError_eq_ok {x : Except ε α} {a : α} : liftError x = .ok a ↔ x = .ok a := by
  cases x with
  | error e => exact ⟨nofun, nofun⟩
  | ok b => exact ⟨fun h => by cases h; rfl, fun h => by cases h; rfl⟩

theorem mapError_eq_ok {f : ε → δ} {x : Except (Stop ε) α} {a : α} :
    mapError f x = .ok a ↔ x = .ok a := by
  cases x with
  | error stop => cases stop <;> exact ⟨nofun, nofun⟩
  | ok b => exact ⟨fun h => by cases h; rfl, fun h => by cases h; rfl⟩

theorem attempt_eq_ok {x : Except (Stop ε) α} {a : α} :
    attempt x = .ok (.ok a) ↔ x = .ok a := by
  cases x with
  | error stop => cases stop <;> exact ⟨nofun, nofun⟩
  | ok b => exact ⟨fun h => by cases h; rfl, fun h => by cases h; rfl⟩

end Stop

theorem mapError_eq_ok {ε δ α : Type} {f : ε → δ} {x : Except ε α} {a : α} :
    x.mapError f = .ok a ↔ x = .ok a := by
  cases x with
  | error e => exact ⟨nofun, nofun⟩
  | ok b => exact ⟨fun h => by cases h; rfl, fun h => by cases h; rfl⟩

end Mosaic
