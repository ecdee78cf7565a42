/-!
# Results of steps that may fail

Steps one after the other succeed if each of them does.

## What is here

* `bind_eq_ok_iff`, `then_eq_ok_iff`, `map_eq_ok_iff`, `map_eq_error_iff`, `exists_error_iff`.
* `Judges` — a step that checks something, and fails for reasons only; `Judges.bind`, and
  `Judges.cons` for what is listed.
-/

set_option autoImplicit false

namespace ResponseTypes

variable {ε α β : Type}

theorem bind_eq_ok_iff {r : Except ε α} {f : α → Except ε β} {b : β} :
    r >>= f = .ok b ↔ ∃ a, r = .ok a ∧ f a = .ok b := by
  cases r <;> simp [bind, Except.bind]

theorem then_eq_ok_iff {r : Except ε Unit} {r' : Except ε β} {b : β} :
    (r >>= fun _ => r') = .ok b ↔ r = .ok () ∧ r' = .ok b := by
  cases r <;> simp [bind, Except.bind]

theorem map_eq_ok_iff {r : Except ε α} {f : α → β} {b : β} :
    r.map f = .ok b ↔ ∃ a, r = .ok a ∧ f a = b := by
  cases r <;> simp [Except.map]

theorem map_eq_error_iff {r : Except ε α} {f : α → β} {e : ε} :
    r.map f = .error e ↔ r = .error e := by
  cases r <;> simp [Except.map]

/-- A step fails if it does not succeed. -/
theorem exists_error_iff {r : Except ε α} : (∃ e, r = .error e) ↔ ¬ ∃ a, r = .ok a := by
  cases r <;> simp

/-! ## Steps that check something -/

/-- A step succeeds only if something holds, and fails only for a reason. -/
structure Judges (r : Except ε α) (good : Prop) (reason : ε → Prop) : Prop where
  good_of_ok : ∀ a, r = .ok a → good
  reason_of_error : ∀ e, r = .error e → reason e

namespace Judges

variable {r : Except ε α} {k : α → Except ε β} {good good' : Prop} {reason reason' : ε → Prop}

theorem ok (a : α) (h : good) : Judges (.ok a) good reason :=
  ⟨fun _ _ => h, nofun⟩

theorem error {e : ε} (h : reason e) : Judges (.error e : Except ε α) good reason :=
  ⟨nofun, by rintro _ ⟨⟩; exact h⟩

theorem imp (h : Judges r good reason) (hgood : good → good')
    (hreason : ∀ e, reason e → reason' e) : Judges r good' reason' :=
  ⟨fun a ha => hgood (h.good_of_ok a ha), fun e he => hreason e (h.reason_of_error e he)⟩

/-- **One step after the other** checks both things. -/
theorem bind (h : Judges r good reason) (hk : ∀ a, r = .ok a → Judges (k a) good' reason) :
    Judges (r >>= k) (good ∧ good') reason := by
  cases r with
  | ok a =>
    have hnext : Judges (k a) good' reason := hk a rfl
    exact ⟨fun b hb => ⟨h.good_of_ok a rfl, hnext.good_of_ok b hb⟩, hnext.reason_of_error⟩
  | error e =>
    exact .error (h.reason_of_error e rfl)

theorem map (h : Judges r good reason) (f : α → β) :
    Judges (r >>= fun a => .ok (f a)) good reason :=
  (h.bind fun a _ => .ok (f a) trivial).imp And.left fun _ => id

/-- **Steps for all that is listed**, one after the other: the first checks what is at the head. -/
theorem cons {γ : Type} {c : γ} {cs : List γ} {P : γ → Prop} {R : γ → ε → Prop}
    (h : Judges r (P c) (R c))
    (hk : ∀ a, r = .ok a → Judges (k a) (∀ d ∈ cs, P d) fun e => ∃ d ∈ cs, R d e) :
    Judges (r >>= k) (∀ d ∈ c :: cs, P d) fun e => ∃ d ∈ c :: cs, R d e := by
  refine Judges.imp (.bind (h.imp id ?_) fun a ha => (hk a ha).imp id ?_) List.forall_mem_cons.2
    fun _ => id
  · exact fun e he => ⟨c, List.mem_cons_self, he⟩
  · rintro e ⟨d, hd, he⟩
    exact ⟨d, List.mem_cons_of_mem _ hd, he⟩

/-- A step that checks something succeeds exactly if that holds, if every reason to fail contradicts
it. -/
theorem exists_ok_iff (h : Judges r good reason) (hreason : ∀ e, reason e → ¬ good) :
    (∃ a, r = .ok a) ↔ good := by
  constructor
  · rintro ⟨a, ha⟩
    exact h.good_of_ok a ha
  · intro hgood
    cases hr : r with
    | ok a => exact ⟨a, rfl⟩
    | error e => exact absurd hgood (hreason e (h.reason_of_error e hr))

end Judges
end ResponseTypes
