import Spork.Effects.Machine

/-!
# Footprints, and what they keep

`p.Only C` says that every call `p` can ever make satisfies `C`, whatever the earlier ones came
back with.  It is a syntactic fact about the tree, so it is proved once for each program and holds
on every machine; together with what the calls in `C` do to a world it gives the assertions that
`p` keeps (`Machine.keeps_of_only`), without a look at how `p` works.

`Machine.Keeps` is the invariant half of `wp` on its own.  It goes through every way of composing
programs, and so through sequences of them (`Machine.Attempts`).
-/

set_option autoImplicit false

namespace Effects

namespace Prog

variable {S : Sig} {α β : Type} {C D : S.Op → Prop}

/-- Every call of the program satisfies `C`. -/
def Only (C : S.Op → Prop) : Prog S α → Prop
  | .done _ => True
  | .call op k => C op ∧ ∀ r, Only C (k r)

theorem Only.mono (hCD : ∀ op, C op → D op) : ∀ {p : Prog S α}, p.Only C → p.Only D
  | .done _, _ => trivial
  | .call _ _, h => ⟨hCD _ h.1, fun r => (h.2 r).mono hCD⟩

/-- Every program makes some calls or other. -/
theorem only_true : ∀ p : Prog S α, p.Only fun _ => True
  | .done _ => trivial
  | .call _ k => ⟨trivial, fun r => only_true (k r)⟩

@[simp] theorem only_perform {op : S.Op} : (perform op : Prog S (S.Ret op)).Only C ↔ C op :=
  ⟨fun h => h.1, fun h => ⟨h, fun _ => trivial⟩⟩

theorem Only.andThen {f : S.Outcome α → Prog S β} (hf : ∀ r, (f r).Only C) :
    ∀ {p : Prog S α}, p.Only C → (p.andThen f).Only C
  | .done r, _ => hf r
  | .call _ _, h => ⟨h.1, fun r => Only.andThen hf (h.2 r)⟩

theorem Only.bind {p : Prog S α} {f : α → Prog S β} (hp : p.Only C) (hf : ∀ a, (f a).Only C) :
    (p >>= f).Only C := by
  refine Only.andThen (fun r => ?_) hp
  cases r with
  | ok a => exact hf a
  | error e => trivial

/-- The first half of a program calls nothing that the whole does not call. -/
theorem Only.of_bind {f : α → Prog S β} : ∀ {p : Prog S α}, (p >>= f).Only C → p.Only C
  | .done _, _ => trivial
  | .call _ _, h => ⟨h.1, fun r => Only.of_bind (h.2 r)⟩

theorem Only.tryCatch {p : Prog S α} {h : S.Err → Prog S α} (hp : p.Only C)
    (hh : ∀ e, (h e).Only C) : (p.tryCatch h).Only C := by
  refine Only.andThen (fun r => ?_) hp
  cases r with
  | ok a => trivial
  | error e => exact hh e

theorem Only.ite {c : Prop} [Decidable c] {p q : Prog S α} (hp : p.Only C) (hq : q.Only C) :
    (if c then p else q).Only C := by
  split
  · exact hp
  · exact hq

/-- An evaluation keeps what each of its calls keeps. -/
theorem Only.eval_keeps {W : Type} {answer : W → (op : S.Op) → S.Outcome (S.Ret op) × W}
    {I : W → Prop} (hI : ∀ w op, C op → I w → I (answer w op).2) :
    ∀ {p : Prog S α} {w : W}, p.Only C → I w → I (p.eval answer w).2
  | .done _, _, _, hw => hw
  | .call op k, w, h, hw => by
    show I ((k (answer w op).1).eval answer (answer w op).2).2
    exact Only.eval_keeps hI (h.2 _) (hI w op h.1 hw)

/-! ### Footprints under an assumption -/

section OnlyGiven

variable {A : (op : S.Op) → S.Outcome (S.Ret op) → Prop}

/-- As long as the answers satisfy `A`, every call of the program satisfies `C`. -/
def OnlyGiven (A : (op : S.Op) → S.Outcome (S.Ret op) → Prop) (C : S.Op → Prop) : Prog S α → Prop
  | .done _ => True
  | .call op k => C op ∧ ∀ r, A op r → OnlyGiven A C (k r)

theorem OnlyGiven.andThen {f : S.Outcome α → Prog S β} (hf : ∀ r, (f r).OnlyGiven A C) :
    ∀ {p : Prog S α}, p.OnlyGiven A C → (p.andThen f).OnlyGiven A C
  | .done r, _ => hf r
  | .call _ _, h => ⟨h.1, fun r hr => OnlyGiven.andThen hf (h.2 r hr)⟩

theorem OnlyGiven.bind {p : Prog S α} {f : α → Prog S β} (hp : p.OnlyGiven A C)
    (hf : ∀ a, (f a).OnlyGiven A C) : (p >>= f).OnlyGiven A C := by
  refine OnlyGiven.andThen (fun r => ?_) hp
  cases r with
  | ok a => exact hf a
  | error e => trivial

/-- A footprint holds under every assumption. -/
theorem Only.given : ∀ {p : Prog S α}, p.Only C → p.OnlyGiven A C
  | .done _, _ => trivial
  | .call _ _, h => ⟨h.1, fun r _ => (h.2 r).given⟩

/-- One call: only an answer that satisfies `A` is followed up. -/
theorem OnlyGiven.perform_bind {op : S.Op} {f : S.Ret op → Prog S β} (hop : C op)
    (hf : ∀ a, A op (.ok a) → (f a).OnlyGiven A C) : (perform op >>= f).OnlyGiven A C := by
  refine ⟨hop, fun r hr => ?_⟩
  cases r with
  | ok a => exact hf a hr
  | error e => trivial

end OnlyGiven

/-! ### Calls whose failure is the end -/

section FailsWith

variable {f : S.Err → S.Err}

/-- A call in `C` that raises `e` ends the program, which raises `f e`. -/
def FailsWith (C : S.Op → Prop) (f : S.Err → S.Err) : Prog S α → Prop
  | .done _ => True
  | .call op k => (C op → ∀ e, k (.error e) = raise (f e)) ∧ ∀ r, FailsWith C f (k r)

/-- Sequencing: what comes after must not resume a program that has failed. -/
theorem FailsWith.andThen {g : S.Outcome α → Prog S β} (hg : ∀ r, (g r).FailsWith C f)
    (hfail : ∀ e, g (.error (f e)) = raise (f e)) :
    ∀ {p : Prog S α}, p.FailsWith C f → (p.andThen g).FailsWith C f
  | .done r, _ => hg r
  | .call op k, h => by
    refine ⟨fun hop e => ?_, fun r => FailsWith.andThen hg hfail (h.2 r)⟩
    show (k (.error e)).andThen g = raise (f e)
    rw [h.1 hop e]
    exact hfail e

theorem FailsWith.bind {p : Prog S α} {g : α → Prog S β} (hp : p.FailsWith C f)
    (hg : ∀ a, (g a).FailsWith C f) : (p >>= g).FailsWith C f := by
  refine FailsWith.andThen (g := onValue g) (fun r => ?_) (fun _ => rfl) hp
  cases r with
  | ok a => exact hg a
  | error e => trivial

theorem FailsWith.tryCatch {p : Prog S α} {h : S.Err → Prog S α} (hp : p.FailsWith C f)
    (hh : ∀ e, (h e).FailsWith C f) (hfail : ∀ e, h (f e) = raise (f e)) :
    (p.tryCatch h).FailsWith C f := by
  refine FailsWith.andThen (g := onError h) (fun r => ?_) hfail hp
  cases r with
  | ok a => trivial
  | error e => exact hh e

end FailsWith

/-! ### Counting calls -/

section AtMost

variable [DecidablePred C]

/-- No path through the program makes more than `n` calls that satisfy `C`. -/
def AtMost (C : S.Op → Prop) [DecidablePred C] : Nat → Prog S α → Prop
  | _, .done _ => True
  | n, .call op k => if C op then 0 < n ∧ ∀ r, AtMost C (n - 1) (k r) else ∀ r, AtMost C n (k r)

theorem AtMost.mono {n m : Nat} (hnm : n ≤ m) : ∀ {p : Prog S α}, AtMost C n p → AtMost C m p
  | .done _, _ => trivial
  | .call op k, h => by
    rw [AtMost] at h ⊢
    split
    · rename_i hop
      rw [if_pos hop] at h
      exact ⟨by omega, fun r => (h.2 r).mono (by omega)⟩
    · rename_i hop
      rw [if_neg hop] at h
      exact fun r => (h r).mono hnm

theorem atMost_of_only (n : Nat) : ∀ {p : Prog S α}, p.Only (fun op => ¬C op) → AtMost C n p
  | .done _, _ => trivial
  | .call op k, h => by
    rw [AtMost, if_neg h.1]
    exact fun r => atMost_of_only n (h.2 r)

theorem only_of_atMost : ∀ {p : Prog S α}, AtMost C 0 p → p.Only fun op => ¬C op
  | .done _, _ => trivial
  | .call op k, h => by
    rw [AtMost] at h
    split at h
    · exact absurd h.1 (Nat.lt_irrefl 0)
    · exact ⟨‹_›, fun r => only_of_atMost (h r)⟩

theorem atMost_perform {op : S.Op} : AtMost C 1 (perform op : Prog S (S.Ret op)) := by
  rw [perform, AtMost]
  split
  · exact ⟨Nat.one_pos, fun _ => trivial⟩
  · exact fun _ => trivial

/-- The counts of two programs in sequence add up. -/
theorem AtMost.andThen {m : Nat} {f : S.Outcome α → Prog S β} (hf : ∀ r, AtMost C m (f r)) :
    ∀ {n : Nat} {p : Prog S α}, AtMost C n p → AtMost C (n + m) (p.andThen f)
  | n, .done r, _ => (hf r).mono (by omega)
  | n, .call op k, h => by
    rw [Prog.andThen, AtMost]
    rw [AtMost] at h
    split
    · rename_i hop
      rw [if_pos hop] at h
      refine ⟨by omega, fun r => ?_⟩
      have hk := AtMost.andThen hf (h.2 r)
      rwa [show n + m - 1 = n - 1 + m by omega]
    · rename_i hop
      rw [if_neg hop] at h
      exact fun r => AtMost.andThen hf (h r)

theorem AtMost.bind {n m : Nat} {p : Prog S α} {f : α → Prog S β} (hp : AtMost C n p)
    (hf : ∀ a, AtMost C m (f a)) : AtMost C (n + m) (p >>= f) := by
  refine AtMost.andThen (fun r => ?_) hp
  cases r with
  | ok a => exact hf a
  | error e => trivial

/-- The first half of a program makes no more such calls than the whole. -/
theorem AtMost.of_bind {f : α → Prog S β} :
    ∀ {n : Nat} {p : Prog S α}, AtMost C n (p >>= f) → AtMost C n p
  | _, .done _, _ => trivial
  | n, .call op k, h => by
    change AtMost C n (.call op fun r => k r >>= f) at h
    rw [AtMost] at h ⊢
    split
    · rename_i hop
      rw [if_pos hop] at h
      exact ⟨h.1, fun r => AtMost.of_bind (h.2 r)⟩
    · rename_i hop
      rw [if_neg hop] at h
      exact fun r => AtMost.of_bind (h r)

/-- Only the first program counts. -/
theorem AtMost.bind_left {n : Nat} {p : Prog S α} {f : α → Prog S β} (hp : AtMost C n p)
    (hf : ∀ a, AtMost C 0 (f a)) : AtMost C n (p >>= f) := hp.bind hf

/-- Only the rest counts. -/
theorem AtMost.bind_right {n : Nat} {p : Prog S α} {f : α → Prog S β} (hp : AtMost C 0 p)
    (hf : ∀ a, AtMost C n (f a)) : AtMost C n (p >>= f) :=
  (hp.bind hf).mono (Nat.le_of_eq (Nat.zero_add n))

/-- The handler does not count. -/
theorem AtMost.tryCatch {n : Nat} {p : Prog S α} {h : S.Err → Prog S α} (hp : AtMost C n p)
    (hh : ∀ e, AtMost C 0 (h e)) : AtMost C n (p.tryCatch h) := by
  refine AtMost.andThen (m := 0) (fun r => ?_) hp
  cases r with
  | ok a => trivial
  | error e => exact hh e

theorem AtMost.ite {n : Nat} {c : Prop} [Decidable c] {p q : Prog S α} (hp : AtMost C n p)
    (hq : AtMost C n q) : AtMost C n (if c then p else q) := by
  split
  · exact hp
  · exact hq

end AtMost

end Prog

namespace Machine

variable {S : Sig} {W : Type} {α : Type} {M : Machine S W} {C : S.Op → Prop} {I : W → Prop}

/-- Two facts about one program are one fact. -/
theorem wp_and {J : W → Prop} {Q R : S.Outcome α → W → Prop} :
    ∀ {p : Prog S α} {w : W}, wp M I p Q w → wp M J p R w →
      wp M (fun w => I w ∧ J w) p (fun r w => Q r w ∧ R r w) w
  | .done _, _, h, h' => ⟨⟨h.1, h'.1⟩, h.2, h'.2⟩
  | .call _ _, _, h, h' =>
    ⟨⟨h.1, h'.1⟩, fun r _ hc => wp_and (h.2 r _ hc) (h'.2 r _ hc)⟩

/-- `I` holds in every world on the way of `p`, if it holds at its start. -/
def Keeps (M : Machine S W) (I : W → Prop) (p : Prog S α) : Prop :=
  ∀ w, I w → wp M I p (fun _ _ => True) w

section Keeps

variable {β : Type} {p : Prog S α}

theorem keeps_done {r : S.Outcome α} : Keeps M I (.done r : Prog S α) := fun _ hw => ⟨hw, trivial⟩

theorem Keeps.andThen {f : S.Outcome α → Prog S β} (hp : Keeps M I p)
    (hf : ∀ r, Keeps M I (f r)) : Keeps M I (p.andThen f) := fun w hw =>
  (wp_andThen f).2 (wp_mono (fun _ h => h) (fun r w' hw' _ => hf r w' hw') (hp w hw))

theorem Keeps.bind {f : α → Prog S β} (hp : Keeps M I p) (hf : ∀ a, Keeps M I (f a)) :
    Keeps M I (p >>= f) := by
  refine Keeps.andThen hp fun r => ?_
  cases r with
  | ok a => exact hf a
  | error e => exact keeps_done

theorem Keeps.tryCatch {h : S.Err → Prog S α} (hp : Keeps M I p) (hh : ∀ e, Keeps M I (h e)) :
    Keeps M I (p.tryCatch h) := by
  refine Keeps.andThen hp fun r => ?_
  cases r with
  | ok a => exact keeps_done
  | error e => exact hh e

theorem Keeps.ite {c : Prop} [Decidable c] {q : Prog S α} (hp : Keeps M I p)
    (hq : Keeps M I q) : Keeps M I (if c then p else q) := by
  split
  · exact hp
  · exact hq

/-- A program that keeps `K` leaves `K` to the rest. -/
theorem Keeps.wp_bind {K : W → Prop} {f : α → Prog S β} {Q : S.Outcome β → W → Prop} {w : W}
    (hp : Keeps M K p) (hKI : ∀ w, K w → I w) (hw : K w) (hf : ∀ a w', K w' → wp M I (f a) Q w')
    (he : ∀ e w', K w' → Q (.error e) w') : wp M I (p >>= f) Q w := by
  refine Machine.wp_bind.2 (wp_mono hKI (fun r w' hw' _ => ?_) (hp w hw))
  cases r with
  | ok a => exact hf a w' hw'
  | error e => exact ⟨hKI w' hw', he e w' hw'⟩

/-- A run ends with what it reaches. -/
theorem wp_reached : ∀ (p : Prog S α) (w : W),
    wp M (fun _ => True) p (fun r w' => Reaches M p w (.done r) w') w
  | .done _, _ => ⟨trivial, .refl⟩
  | .call _ k, _ => ⟨trivial, fun r w' hc =>
      wp_mono (fun _ h => h) (fun _ _ _ h => .head (.call hc) h) (wp_reached (k r) w')⟩

/-- What follows may rely on how the first half ended. -/
theorem Keeps.andThen_reached {f : S.Outcome α → Prog S β} {Q : S.Outcome β → W → Prop} {w : W}
    (hp : Keeps M I p) (hw : I w)
    (hf : ∀ r w', I w' → Reaches M p w (.done r) w' → wp M I (f r) Q w') :
    wp M I (p.andThen f) Q w := by
  have hreached := wp_and (hp w hw) (wp_reached p w)
  exact (wp_andThen f).2 (wp_mono (fun _ h => h.1) (fun r w' hw' h => hf r w' hw'.1 h.2) hreached)

theorem Keeps.bind_reached {f : α → Prog S β} {w : W} (hp : Keeps M I p) (hw : I w)
    (hf : ∀ a w', I w' → Reaches M p w (.done (.ok a)) w' → wp M I (f a) (fun _ _ => True) w') :
    wp M I (p >>= f) (fun _ _ => True) w := by
  refine hp.andThen_reached hw fun r w' hw' hr => ?_
  cases r with
  | ok a => exact hf a w' hw' hr
  | error e => exact ⟨hw', trivial⟩

/-- What a program keeps holds wherever one of its runs is looked at. -/
theorem Keeps.reaches (hp : Keeps M I p) {p' : Prog S α} {w w' : W} (hw : I w)
    (hr : Reaches M p w p' w') : I w' := wp_inv (wp_reaches (hp w hw) hr)

end Keeps

/-- If `p` raises, the error is one of `E`. -/
def RaisesOnly (M : Machine S W) (E : S.Err → Prop) (p : Prog S α) : Prop :=
  ∀ w, wp M (fun _ => True) p (fun r _ => ∀ e, r = .error e → E e) w

section RaisesOnly

variable {β : Type} {E F : S.Err → Prop} {p : Prog S α}

theorem raisesOnly_pure {a : α} : RaisesOnly M E (pure a : Prog S α) :=
  fun _ => ⟨trivial, fun _ h => by cases h⟩

theorem raisesOnly_raise {e : S.Err} (h : E e) : RaisesOnly M E (.raise e : Prog S α) :=
  fun _ => ⟨trivial, fun _ he => by cases he; exact h⟩

theorem RaisesOnly.bind {f : α → Prog S β} (hp : RaisesOnly M E p)
    (hf : ∀ a, RaisesOnly M E (f a)) : RaisesOnly M E (p >>= f) := by
  refine fun w => wp_bind.2 (wp_mono (fun _ h => h) (fun r w' _ hr => ?_) (hp w))
  cases r with
  | ok a => exact hf a w'
  | error e => exact ⟨trivial, fun _ h => by cases h; exact hr e rfl⟩

/-- A handler has to deal with what its body may raise. -/
theorem RaisesOnly.tryCatch {h : S.Err → Prog S α} (hp : RaisesOnly M E p)
    (hh : ∀ e, E e → RaisesOnly M F (h e)) : RaisesOnly M F (p.tryCatch h) := by
  refine fun w => wp_tryCatch.2 (wp_mono (fun _ h => h) (fun r w' _ hr => ?_) (hp w))
  cases r with
  | ok a => exact ⟨trivial, fun _ h => by cases h⟩
  | error e => exact hh e (hr e rfl) w'

theorem RaisesOnly.ite {c : Prop} [Decidable c] {q : Prog S α} (hp : RaisesOnly M E p)
    (hq : RaisesOnly M E q) : RaisesOnly M E (if c then p else q) := by
  split
  · exact hp
  · exact hq

end RaisesOnly

/-- A program keeps what each of its calls keeps. -/
theorem wp_of_only (hI : ∀ w op r w', C op → I w → M w op r w' → I w') :
    ∀ {p : Prog S α} {w : W}, p.Only C → I w → wp M I p (fun _ _ => True) w
  | .done _, _, _, hw => ⟨hw, trivial⟩
  | .call _ _, _, h, hw => ⟨hw, fun r _ hc => wp_of_only hI (h.2 r) (hI _ _ r _ h.1 hw hc)⟩

theorem keeps_of_only (hI : ∀ w op r w', C op → I w → M w op r w' → I w') {p : Prog S α}
    (h : p.Only C) : Keeps M I p := fun _ hw => wp_of_only hI h hw

/-- Only what comes last matters. -/
theorem wp_bind_right {β : Type} {p : Prog S α} {f : α → Prog S β} {Q : S.Outcome β → W → Prop}
    (hf : ∀ a w, wp M (fun _ => True) (f a) Q w) (he : ∀ e w, Q (.error e) w) (w : W) :
    wp M (fun _ => True) (p >>= f) Q w := by
  have hp : wp M (fun _ => True) p (fun _ _ => True) w :=
    wp_of_only (C := fun _ => True) (fun _ _ _ _ _ _ _ => trivial) (Prog.only_true p) trivial
  refine wp_bind.2 (wp_mono (fun _ h => h) (fun r w' _ _ => ?_) hp)
  cases r with
  | ok a => exact hf a w'
  | error e => exact ⟨trivial, he e w'⟩

/-- If `p` returns, the value satisfies `P`. -/
def ReturnsOnly (M : Machine S W) (P : α → Prop) (p : Prog S α) : Prop :=
  ∀ w, wp M (fun _ => True) p (fun r _ => ∀ a, r = .ok a → P a) w

section ReturnsOnly

variable {β : Type} {P : α → Prop} {Q : β → Prop} {p : Prog S α}

theorem returnsOnly_pure {a : α} (h : P a) : ReturnsOnly M P (pure a : Prog S α) :=
  fun _ => ⟨trivial, fun _ ha => by cases ha; exact h⟩

theorem returnsOnly_raise {e : S.Err} : ReturnsOnly M P (.raise e : Prog S α) :=
  fun _ => ⟨trivial, fun _ h => by cases h⟩

theorem returnsOnly_true (p : Prog S α) : ReturnsOnly M (fun _ => True) p :=
  fun _ => wp_mono (fun _ h => h) (fun _ _ _ _ _ _ => trivial)
    (wp_of_only (C := fun _ => True) (fun _ _ _ _ _ _ _ => trivial) (Prog.only_true p) trivial)

theorem ReturnsOnly.bind {f : α → Prog S β} (hp : ReturnsOnly M P p)
    (hf : ∀ a, P a → ReturnsOnly M Q (f a)) : ReturnsOnly M Q (p >>= f) := by
  refine fun w => wp_bind.2 (wp_mono (fun _ h => h) (fun r w' _ hr => ?_) (hp w))
  cases r with
  | ok a => exact hf a (hr a rfl) w'
  | error e => exact ⟨trivial, fun _ h => by cases h⟩

/-- Only the rest matters. -/
theorem ReturnsOnly.bind_right {f : α → Prog S β} (hf : ∀ a, ReturnsOnly M Q (f a)) :
    ReturnsOnly M Q (p >>= f) := (returnsOnly_true p).bind fun a _ => hf a

theorem ReturnsOnly.tryCatch {h : S.Err → Prog S α} (hp : ReturnsOnly M P p)
    (hh : ∀ e, ReturnsOnly M P (h e)) : ReturnsOnly M P (p.tryCatch h) := by
  refine fun w => wp_tryCatch.2 (wp_mono (fun _ h => h) (fun r w' _ hr => ?_) (hp w))
  cases r with
  | ok a => exact ⟨trivial, hr⟩
  | error e => exact hh e w'

end ReturnsOnly

/-- What is left of a program still fails where the program does. -/
theorem failsWith_reaches {f : S.Err → S.Err} {p p' : Prog S α} {w w' : W} (hp : p.FailsWith C f)
    (hr : Reaches M p w p' w') : p'.FailsWith C f := by
  have key : ∀ c : Prog S α × W, Relation.ReflTransGen (Step M) (p, w) c → c.1.FailsWith C f := by
    intro c hc
    induction hc with
    | refl => exact hp
    | tail _ hs ih =>
      cases hs with
      | call h => exact ih.2 _
  exact key (p', w') hr

/-- A fact about a part of the world is a fact about the whole of it, for a program whose calls
act on that part alone. -/
theorem wp_comap {V : Type} {N : Machine S V} {f : V → W} {Q : S.Outcome α → W → Prop}
    (hN : ∀ v op r v', C op → N v op r v' → M (f v) op r (f v')) :
    ∀ {p : Prog S α} {v : V}, p.Only C → wp M I p Q (f v) →
      wp N (fun v => I (f v)) p (fun r v => Q r (f v)) v
  | .done _, _, _, h => h
  | .call _ _, _, hp, h =>
    ⟨h.1, fun r _ hc => wp_comap hN (hp.2 r) (h.2 r _ (hN _ _ _ _ hp.1 hc))⟩

/-- A quantity that only calls in `C` increase, by one each, grows by at most their number. -/
theorem reaches_count_le [DecidablePred C] (count : W → Nat)
    (hcount : ∀ w op r w', M w op r w' → count w' ≤ count w + if C op then 1 else 0)
    {p p' : Prog S α} {w w' : W} {n : Nat} (hp : p.AtMost C n) (hr : Reaches M p w p' w') :
    count w' ≤ count w + n := by
  have key : ∀ c : Prog S α × W, Relation.ReflTransGen (Step M) (p, w) c →
      ∃ m, c.1.AtMost C m ∧ count c.2 + m ≤ count w + n := by
    intro c hc
    induction hc with
    | refl => exact ⟨n, hp, Nat.le_refl _⟩
    | tail _ hs ih =>
      obtain ⟨m, hm, hle⟩ := ih
      cases hs with
      | @call op k w₁ w₂ r h =>
        have hstep := hcount _ op r _ h
        rw [Prog.AtMost] at hm
        split at hm
        · rename_i hop
          rw [if_pos hop] at hstep
          exact ⟨m - 1, hm.2 r, by have := hm.1; dsimp only at hle ⊢; omega⟩
        · rename_i hop
          rw [if_neg hop] at hstep
          exact ⟨m, hm r, by dsimp only at hle ⊢; omega⟩
  obtain ⟨m, _, hle⟩ := key (p', w') hr
  exact Nat.le_trans (Nat.le_add_right _ _) hle

/-! ## Sequences of runs

Several programs, one after another, each from the world the previous one left.  An *attempt* may
run to its end, or be cut off anywhere, or raise; each is noted with whether it is known to have
returned. -/

/-- The programs of a sequence, each run as far as it got.  `true` marks one that returned. -/
inductive Attempts {ι : Type} (M : Machine S W) (P : ι → Prog S α) :
    List (ι × Bool) → W → W → Prop where
  | nil {w : W} : Attempts M P [] w w
  | returned {i : ι} {is : List (ι × Bool)} {w w₁ w₂ : W} {a : α}
      (h : Reaches M (P i) w (.done (.ok a)) w₁) (hs : Attempts M P is w₁ w₂) :
      Attempts M P ((i, true) :: is) w w₂
  | aborted {i : ι} {is : List (ι × Bool)} {w w₁ w₂ : W} {p : Prog S α}
      (h : Reaches M (P i) w p w₁) (hs : Attempts M P is w₁ w₂) :
      Attempts M P ((i, false) :: is) w w₂

/-- What every attempt keeps, a sequence of attempts keeps. -/
theorem Attempts.keeps {ι : Type} {P : ι → Prog S α} (hP : ∀ i, Keeps M I (P i))
    {is : List (ι × Bool)} {w w' : W} (h : Attempts M P is w w') : I w → I w' := by
  induction h with
  | nil => exact id
  | returned hr _ ih => exact fun hw => ih ((hP _).reaches hw hr)
  | aborted hr _ ih => exact fun hw => ih ((hP _).reaches hw hr)

/-- The programs of a sequence, each run to its end, whether it returned or raised. -/
inductive Sequence {ι : Type} (M : Machine S W) (P : ι → Prog S α) : List ι → W → W → Prop where
  | nil {w : W} : Sequence M P [] w w
  | cons {i : ι} {is : List ι} {w w₁ w₂ : W} {r : S.Outcome α}
      (h : Reaches M (P i) w (.done r) w₁) (hs : Sequence M P is w₁ w₂) :
      Sequence M P (i :: is) w w₂

/-- What every run re-establishes at its end holds at the end of a sequence. -/
theorem Sequence.keeps {ι : Type} {P : ι → Prog S α} {J : W → Prop}
    (hP : ∀ i w, J w → wp M I (P i) (fun _ w' => J w') w) {is : List ι} {w w' : W}
    (h : Sequence M P is w w') : J w → J w' := by
  induction h with
  | nil => exact id
  | cons hr _ ih => exact fun hw => ih (wp_reaches (hP _ _ hw) hr).2

end Machine

end Effects
