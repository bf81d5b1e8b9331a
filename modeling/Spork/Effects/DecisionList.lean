import Spork.Effects.Prog

/-!
# Decision lists with a question asked late

A decision list is a list of clauses, and the first clause whose guard holds decides.  A guard is
either settled beforehand or depends on the answer to one question, which is the same for all of
them, costs something, and may fail.  `decideFrom` asks it when the first guard needs the answer and
keeps the answer for the guards that come later.

Declaratively there is only the first clause that holds under an answer (`firstOf`) and whether a
guard is reached that needs one (`Asked`); the second does not depend on the answer it is stated
with (`asked_iff_of_any`).  `decideFrom_of_asked` and `decideFrom_of_not_asked` say that the program
is exactly that.
-/

set_option autoImplicit false

namespace Effects

/-- What has to hold for a clause to decide. -/
inductive Guard (κ : Type) where
  /-- Settled without an answer. -/
  | settled (b : Bool)
  /-- Depends on the answer. -/
  | asks (p : κ → Bool)

variable {S : Sig} {κ β : Type}

/-- The guard holds under the answer `k`. -/
def Guard.holds : Guard κ → κ → Bool
  | settled b, _ => b
  | asks p, k => p k

/-- The guard needs an answer. -/
def Guard.isAsking : Guard κ → Bool
  | settled _ => false
  | asks _ => true

/-- The answer that is there already, or else the question. -/
def askOnce (question : Prog S κ) : Option κ → Prog S κ
  | some k => pure k
  | none => question

/-- Go through the clauses, with the answer once it is there. -/
def decideFrom (question : Prog S κ) : List (Guard κ × β) → Option κ → Prog S (Option β)
  | [], _ => pure none
  | (.settled true, b) :: _, _ => pure (some b)
  | (.settled false, _) :: clauses, cached => decideFrom question clauses cached
  | (.asks p, b) :: clauses, cached => do
    let k ← askOnce question cached
    if p k then pure (some b) else decideFrom question clauses (some k)

/-! ## The first clause that holds -/

/-- The first clause that holds under the answer `k`. -/
def firstOf (clauses : List (Guard κ × β)) (k : κ) : Option β :=
  (clauses.find? fun c => c.1.holds k).map Prod.snd

/-- A clause is reached that needs an answer. -/
def Asked (clauses : List (Guard κ × β)) (k : κ) : Prop :=
  ∃ before c after, clauses = before ++ c :: after ∧ (∀ d ∈ before, d.1.holds k = false) ∧
    c.1.isAsking = true

section Steps

variable {b : β} {clauses : List (Guard κ × β)} {k k' : κ}

theorem firstOf_cons (c : Guard κ × β) (clauses : List (Guard κ × β)) (k : κ) :
    firstOf (c :: clauses) k = if c.1.holds k then some c.2 else firstOf clauses k := by
  rw [firstOf, firstOf, List.find?_cons]
  cases c.1.holds k <;> rfl

theorem not_asked_nil : ¬Asked ([] : List (Guard κ × β)) k := by
  rintro ⟨before, c, after, h, -, -⟩
  cases before <;> cases h

theorem asked_cons (c : Guard κ × β) : Asked (c :: clauses) k ↔
    c.1.isAsking = true ∨ c.1.holds k = false ∧ Asked clauses k := by
  constructor
  · rintro ⟨before, d, after, h, hbefore, hd⟩
    cases before with
    | nil =>
      cases h
      exact .inl hd
    | cons e before =>
      cases h
      exact .inr ⟨hbefore c List.mem_cons_self, before, d, after, rfl,
        fun x hx => hbefore x (List.mem_cons_of_mem c hx), hd⟩
  · rintro (hc | ⟨hc, before, d, after, rfl, hbefore, hd⟩)
    · exact ⟨[], c, clauses, rfl, (fun x hx => by cases hx), hc⟩
    · refine ⟨c :: before, d, after, rfl, fun x hx => ?_, hd⟩
      rcases List.mem_cons.1 hx with rfl | hx
      · exact hc
      · exact hbefore x hx

/-- **Whether the question is asked does not depend on its answer.** -/
theorem asked_iff_of_any (k k' : κ) : ∀ clauses : List (Guard κ × β),
    Asked clauses k ↔ Asked clauses k'
  | [] => iff_of_false not_asked_nil not_asked_nil
  | (.settled b, x) :: clauses => by
    rw [asked_cons, asked_cons, asked_iff_of_any k k' clauses]
    rfl
  | (.asks p, x) :: clauses => by
    rw [asked_cons, asked_cons]
    exact iff_of_true (.inl rfl) (.inl rfl)

/-! ## The program -/

/-- With the answer there, nothing is asked any more. -/
theorem decideFrom_cached (question : Prog S κ) (k : κ) : ∀ clauses : List (Guard κ × β),
    decideFrom question clauses (some k) = pure (firstOf clauses k)
  | [] => rfl
  | (.settled true, b) :: clauses => rfl
  | (.settled false, b) :: clauses => decideFrom_cached question k clauses
  | (.asks p, b) :: clauses => by
    rw [decideFrom, askOnce, pure_bind, firstOf_cons, decideFrom_cached question k clauses]
    show _ = pure (if p k then _ else _)
    split <;> rfl

/-- If a clause is reached that needs an answer, the question is asked once. -/
theorem decideFrom_of_asked (question : Prog S κ) : ∀ clauses : List (Guard κ × β),
    Asked clauses k →
    decideFrom question clauses none = question >>= fun k => pure (firstOf clauses k)
  | [], h => absurd h not_asked_nil
  | (.settled true, b) :: clauses, h => by
    rcases (asked_cons _).1 h with h | ⟨h, -⟩ <;> cases h
  | (.settled false, b) :: clauses, h => by
    rcases (asked_cons _).1 h with h | ⟨-, h⟩
    · cases h
    · exact decideFrom_of_asked question clauses h
  | (.asks p, b) :: clauses, h => by
    rw [decideFrom, askOnce]
    refine bind_congr fun k => ?_
    rw [decideFrom_cached, firstOf_cons]
    show _ = pure (if p k then _ else _)
    split <;> rfl

/-- If none is, the question is not asked. -/
theorem decideFrom_of_not_asked (question : Prog S κ) :
    ∀ clauses : List (Guard κ × β), ¬Asked clauses k →
      decideFrom question clauses none = pure (firstOf clauses k)
  | [], _ => rfl
  | (.settled true, _) :: _, _ => rfl
  | (.settled false, _) :: clauses, h =>
    decideFrom_of_not_asked question clauses fun ha => h ((asked_cons _).2 (.inr ⟨rfl, ha⟩))
  | (.asks _, _) :: _, h => absurd ((asked_cons _).2 (.inl rfl)) h

/-! ## Clauses that do not matter -/

/-- A clause that cannot hold can be left out. -/
theorem decideFrom_erase (question : Prog S κ) (b : β) (after : List (Guard κ × β)) :
    ∀ (before : List (Guard κ × β)) (cached : Option κ),
      decideFrom question (before ++ (.settled false, b) :: after) cached
        = decideFrom question (before ++ after) cached
  | [], _ => rfl
  | (.settled true, x) :: before, _ => rfl
  | (.settled false, x) :: before, cached => decideFrom_erase question b after before cached
  | (.asks p, x) :: before, cached => by
    rw [List.cons_append, List.cons_append, decideFrom, decideFrom]
    refine bind_congr fun k => ?_
    rw [decideFrom_erase question b after before]

/-- Clauses behind one that holds do not change whether the question is asked. -/
theorem asked_append (before : List (Guard κ × β)) {c : Guard κ × β} (hc : c.1.holds k = true)
    (after : List (Guard κ × β)) :
    Asked (before ++ c :: after) k ↔ Asked (before ++ [c]) k := by
  induction before with
  | nil =>
    rw [List.nil_append, List.nil_append, asked_cons, asked_cons, hc]
    simp
  | cons d before ih => rw [List.cons_append, List.cons_append, asked_cons, asked_cons, ih]

end Steps

end Effects
