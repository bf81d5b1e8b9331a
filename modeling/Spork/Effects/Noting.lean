import Spork.Effects.Footprint

/-!
# Programs that take notes

A program over `S.noting N` may write a note between its calls.  Writing one never fails and
nothing comes back from it, so what the program does to the world is what is left when its notes
are crossed out: `p.Erases q` says that `q` is left of `p`.

* `Erases.reaches_iff` and `Erases.finishes_iff`: a machine can bring `p` exactly as far as `q`,
  and to the same ends.
* `Prog.Notes` says what a program has noted, on the way and at its end.  It is a fact about the
  tree, and `Notes.reaches` reads it off the notebook of any run.
-/

set_option autoImplicit false

namespace Effects

/-- The operations of `S`, and the notes of `N`. -/
@[reducible] def Sig.noting (S : Sig) (N : Type) : Sig where
  Op := S.Op ⊕ N
  Ret := Sum.elim S.Ret fun _ => Unit
  Err := S.Err

variable {S : Sig} {N W : Type} {α β : Type}

namespace Prog

/-- A program that notes nothing. -/
def lift : Prog S α → Prog (S.noting N) α
  | done r => done (S := S.noting N) r
  | call op k => call (S := S.noting N) (.inl op) fun r => (k r).lift

/-- Write a note. -/
def note (n : N) : Prog (S.noting N) Unit := perform (S := S.noting N) (.inr n)

/-- What is left of a program when its notes are crossed out. -/
inductive Erases : Prog (S.noting N) α → Prog S α → Prop where
  | done (r : S.Outcome α) : Erases (.done (S := S.noting N) r) (.done r)
  | call {op : S.Op} {k : S.Outcome (S.Ret op) → Prog (S.noting N) α}
      {k' : S.Outcome (S.Ret op) → Prog S α} (h : ∀ r, Erases (k r) (k' r)) :
      Erases (.call (S := S.noting N) (.inl op) k) (.call op k')
  | note {n : N} {k : S.Outcome Unit → Prog (S.noting N) α} {q : Prog S α}
      (h : Erases (k (.ok ())) q) : Erases (.call (S := S.noting N) (.inr n) k) q

theorem erases_lift : ∀ p : Prog S α, Erases (p.lift (N := N)) p
  | .done r => .done r
  | .call _ k => .call fun r => erases_lift (k r)

theorem Erases.andThen {p : Prog (S.noting N) α} {q : Prog S α} (h : p.Erases q)
    {f : S.Outcome α → Prog (S.noting N) β} {g : S.Outcome α → Prog S β}
    (hf : ∀ r, (f r).Erases (g r)) : Erases (Prog.andThen (S := S.noting N) p f) (q.andThen g) := by
  induction h with
  | done r => exact hf r
  | call _ ih => exact .call ih
  | note _ ih => exact .note ih

theorem Erases.bind {p : Prog (S.noting N) α} {q : Prog S α} (h : p.Erases q)
    {f : α → Prog (S.noting N) β} {g : α → Prog S β} (hf : ∀ a, (f a).Erases (g a)) :
    Erases (p >>= f) (q >>= g) := by
  refine h.andThen fun r => ?_
  cases r with
  | ok a => exact hf a
  | error e => exact .done _

/-- A note in front. -/
theorem Erases.note_bind {n : N} {f : Unit → Prog (S.noting N) α} {q : Prog S α}
    (h : (f ()).Erases q) : Erases (Prog.note n >>= f) q := .note h

/-- A note behind. -/
theorem Erases.bind_note {p : Prog (S.noting N) α} {q : Prog S α} (h : p.Erases q) (n : α → N) :
    Erases (p >>= fun a => Prog.note (n a) >>= fun _ => pure a) q := by
  have hbind : Erases (p >>= fun a => Prog.note (n a) >>= fun _ => pure a) (q >>= pure) :=
    h.bind fun a => .note (.done _)
  rwa [bind_pure] at hbind

end Prog

/-! ## Running with a notebook -/

namespace Machine

open Prog

/-- What `M` does, and a notebook that the notes are written in. -/
def noting (M : Machine S W) (N : Type) : Machine (S.noting N) (W × List N)
  | x, .inl op, r, y => M x.1 op r y.1 ∧ y.2 = x.2
  | x, .inr n, r, y => r = .ok () ∧ y = (x.1, x.2 ++ [n])

variable {M : Machine S W} {p p' : Prog (S.noting N) α} {q q' : Prog S α} {w w' : W}
  {l l' : List N} {r : S.Outcome α}

/-- One step: a note, or a call of both programs. -/
theorem erases_step (h : p.Erases q) (hs : Step (M.noting N) (p, w, l) (p', w', l')) :
    w' = w ∧ p'.Erases q ∨ ∃ q', Step M (q, w) (q', w') ∧ p'.Erases q' := by
  cases h with
  | done r => cases hs
  | call hk =>
    cases hs with
    | call hc => exact .inr ⟨_, .call hc.1, hk _⟩
  | note hk =>
    cases hs with
    | call hc =>
      obtain ⟨rfl, hy⟩ := hc
      exact .inl ⟨(Prod.mk.inj hy).1, hk⟩

/-- **What a program that takes notes does, the other one does.** -/
theorem erases_reaches (h : p.Erases q) (hr : Reaches (M.noting N) p (w, l) p' (w', l')) :
    ∃ q', Reaches M q w q' w' ∧ p'.Erases q' := by
  have key : ∀ c, Relation.ReflTransGen (Step (M.noting N)) (p, w, l) c →
      ∃ q', Reaches M q w q' c.2.1 ∧ c.1.Erases q' := by
    intro c hc
    induction hc with
    | refl => exact ⟨q, .refl, h⟩
    | tail _ hs ih =>
      obtain ⟨q₁, hq, he⟩ := ih
      rcases erases_step he hs with ⟨hw, he'⟩ | ⟨q₂, hs', he'⟩
      · exact ⟨q₁, hw ▸ hq, he'⟩
      · exact ⟨q₂, hq.tail hs', he'⟩
  exact key (p', w', l') hr

/-- The notes in front of a call can be written. -/
theorem erases_reaches_call {op : S.Op} {k : S.Outcome (S.Ret op) → Prog S α}
    (h : p.Erases (.call op k)) (w : W) (l : List N) :
    ∃ (k' : S.Outcome (S.Ret op) → Prog (S.noting N) α) (l' : List N),
      Reaches (M.noting N) p (w, l) (.call (S := S.noting N) (.inl op) k') (w, l') ∧
        ∀ r, (k' r).Erases (k r) := by
  generalize hq : Prog.call op k = q at h
  induction h generalizing l with
  | done r => cases hq
  | call hk _ =>
    cases hq
    exact ⟨_, l, .refl, hk⟩
  | @note n k₁ q₁ hk ih =>
    obtain ⟨k', l', hreaches, hk'⟩ := ih (l ++ [n]) hq
    exact ⟨k', l', .head (.call ⟨rfl, rfl⟩) hreaches, hk'⟩

/-- The notes before the end can be written. -/
theorem erases_reaches_done (h : p.Erases (.done r)) (w : W) (l : List N) :
    ∃ l', Reaches (M.noting N) p (w, l) (.done (S := S.noting N) r) (w, l') := by
  generalize hq : Prog.done r = q at h
  induction h generalizing l with
  | done r => cases hq; exact ⟨l, .refl⟩
  | call _ _ => cases hq
  | @note n k₁ q₁ hk ih =>
    obtain ⟨l', hreaches⟩ := ih (l ++ [n]) hq
    exact ⟨l', .head (.call ⟨rfl, rfl⟩) hreaches⟩

/-- **What a program does, the one that takes notes does.** -/
theorem reaches_erases (h : p.Erases q) (hr : Reaches M q w q' w') (l : List N) :
    ∃ p' l', Reaches (M.noting N) p (w, l) p' (w', l') ∧ p'.Erases q' := by
  have key : ∀ c, Relation.ReflTransGen (Step M) (q, w) c →
      ∃ p' l', Reaches (M.noting N) p (w, l) p' (c.2, l') ∧ p'.Erases c.1 := by
    intro c hc
    induction hc with
    | refl => exact ⟨p, l, .refl, h⟩
    | tail _ hs ih =>
      obtain ⟨p₁, l₁, hp, he⟩ := ih
      cases hs with
      | @call op k w₁ w₂ r hc =>
        obtain ⟨k', l₂, hreaches, hk'⟩ := erases_reaches_call (M := M) he w₁ l₁
        have hcall : Step (M.noting N) (.call (S := S.noting N) (.inl op) k', w₁, l₂)
            (k' r, w₂, l₂) := .call ⟨hc, rfl⟩
        exact ⟨k' r, l₂, (hp.trans hreaches).tail hcall, hk' r⟩
  exact key (q', w') hr

/-- **Taking notes neither opens nor closes a way**: the worlds that can be reached are the same. -/
theorem erases_reaches_iff (h : p.Erases q) (l : List N) :
    (∃ p' l', Reaches (M.noting N) p (w, l) p' (w', l')) ↔ ∃ q', Reaches M q w q' w' := by
  constructor
  · rintro ⟨p', l', hr⟩
    obtain ⟨q', hq, -⟩ := erases_reaches h hr
    exact ⟨q', hq⟩
  · rintro ⟨q', hr⟩
    obtain ⟨p', l', hp, -⟩ := reaches_erases h hr l
    exact ⟨p', l', hp⟩

/-- **Nor does it change an end**: the outcomes are the same, in the same worlds. -/
theorem erases_finishes_iff (h : p.Erases q) (l : List N) :
    (∃ l', Reaches (M.noting N) p (w, l) (.done (S := S.noting N) r) (w', l')) ↔
      Reaches M q w (.done r) w' := by
  constructor
  · rintro ⟨l', hr⟩
    obtain ⟨q', hq, he⟩ := erases_reaches h hr
    cases he
    exact hq
  · intro hr
    obtain ⟨p', l₁, hp, he⟩ := reaches_erases h hr l
    obtain ⟨l', hdone⟩ := erases_reaches_done (M := M) he w' l₁
    exact ⟨l', hp.trans hdone⟩

end Machine

/-! ## What is noted -/

namespace Prog

/-- On its way the program has noted `A`, and when it ends, `B`. -/
def Notes (A : List N → Prop) (B : S.Outcome α → List N → Prop) : Prog (S.noting N) α → Prop
  | .done r => A [] ∧ B r []
  | .call (.inl _) k => A [] ∧ ∀ r, Notes A B (k r)
  | .call (.inr n) k =>
    A [] ∧ Notes (fun l => A (n :: l)) (fun r l => B r (n :: l)) (k (.ok ()))

variable {A A' : List N → Prop} {B : S.Outcome α → List N → Prop}
  {B' : S.Outcome β → List N → Prop}

theorem Notes.nil : ∀ {p : Prog (S.noting N) α}, p.Notes A B → A []
  | .done _, h => h.1
  | .call (.inl _) _, h => h.1
  | .call (.inr _) _, h => h.1

theorem Notes.mono {A₂ : List N → Prop} {B₂ : S.Outcome α → List N → Prop}
    {p : Prog (S.noting N) α} (h : p.Notes A B) (hA : ∀ l, A l → A₂ l)
    (hB : ∀ r l, B r l → B₂ r l) : p.Notes A₂ B₂ := by
  induction p generalizing A B A₂ B₂ with
  | done r => exact ⟨hA _ h.1, hB _ _ h.2⟩
  | call op k ih =>
    cases op with
    | inl op => exact ⟨hA _ h.1, fun r => ih r (h.2 r) hA hB⟩
    | inr n => exact ⟨hA _ h.1, ih (.ok ()) h.2 (fun l => hA _) fun r l => hB r _⟩

theorem Notes.andThen {p : Prog (S.noting N) α} {f : S.Outcome α → Prog (S.noting N) β}
    (h : p.Notes A B) (hA : ∀ l, A l → A' l)
    (hf : ∀ r l, A l → B r l →
      (f r).Notes (fun l' => A' (l ++ l')) fun r' l' => B' r' (l ++ l')) :
    Notes A' B' (Prog.andThen (S := S.noting N) p f) := by
  induction p generalizing A B A' B' with
  | done r => exact hf r [] h.1 h.2
  | call op k ih =>
    cases op with
    | inl op => exact ⟨hA _ h.1, fun r => ih r (h.2 r) hA hf⟩
    | inr n =>
      exact ⟨hA _ h.1, ih (.ok ()) h.2 (fun l => hA _) fun r l hl => hf r (n :: l) hl⟩

/-- One program after another: what has been noted so far stands in front. -/
theorem Notes.bind {p : Prog (S.noting N) α} {f : α → Prog (S.noting N) β} (h : p.Notes A B)
    (hA : ∀ l, A l → A' l) (herror : ∀ e l, B (.error e) l → B' (.error e) l)
    (hf : ∀ a l, A l → B (.ok a) l →
      (f a).Notes (fun l' => A' (l ++ l')) fun r' l' => B' r' (l ++ l')) :
    (p >>= f).Notes A' B' := by
  refine h.andThen hA fun r l hl hr => ?_
  cases r with
  | ok a => exact hf a l hl hr
  | error e =>
    rw [← List.append_nil l] at hl hr
    exact ⟨hA _ hl, herror e _ hr⟩

/-- A note about what has come back. -/
theorem Notes.bind_note {B' : S.Outcome α → List N → Prop} {p : Prog (S.noting N) α} {n : α → N}
    (h : p.Notes A B) (hA : ∀ l, A l → A' l) (herror : ∀ e l, B (.error e) l → B' (.error e) l)
    (hnote : ∀ a l, A l → B (.ok a) l → A' (l ++ [n a]) ∧ B' (.ok a) (l ++ [n a])) :
    (p >>= fun a => Prog.note (n a) >>= fun _ => pure a).Notes A' B' := by
  refine h.bind hA herror fun a l hl hr => ?_
  have hnil : A' (l ++ []) := by
    rw [List.append_nil]
    exact hA l hl
  exact ⟨hnil, hnote a l hl hr⟩

/-- A program without notes. -/
theorem notes_lift {M : Machine S Unit} (hM : ∀ w op r w', M w op r w') {P : α → Prop} :
    ∀ {p : Prog S α}, M.ReturnsOnly P p →
      (p.lift (N := N)).Notes (· = []) fun r l => l = [] ∧ ∀ a, r = .ok a → P a
  | .done _, h => ⟨rfl, rfl, (h ()).2⟩
  | .call op k, h =>
    ⟨rfl, fun r => notes_lift hM (p := k r) fun w => (h ()).2 r w (hM () op r w)⟩

end Prog

namespace Machine

open Prog

/-- **What stands in the notebook** of a run is what its program has noted. -/
theorem notes_reaches {M : Machine S W} {A : List N → Prop} {B : S.Outcome α → List N → Prop}
    {p p' : Prog (S.noting N) α} {w w' : W} {l l' : List N} (h : p.Notes A B)
    (hr : Reaches (M.noting N) p (w, l) p' (w', l')) :
    ∃ new, l' = l ++ new ∧ A new ∧ ∀ r, p' = .done r → B r new := by
  have key : ∀ c, Relation.ReflTransGen (Step (M.noting N)) (p, w, l) c →
      ∃ new, c.2.2 = l ++ new ∧
        c.1.Notes (fun more => A (new ++ more)) fun r more => B r (new ++ more) := by
    intro c hc
    induction hc with
    | refl => exact ⟨[], (List.append_nil l).symm, h⟩
    | tail _ hs ih =>
      obtain ⟨new, hl, hp⟩ := ih
      cases hs with
      | @call op k x y r hc =>
        cases op with
        | inl op => exact ⟨new, hc.2.trans hl, hp.2 r⟩
        | inr n =>
          obtain ⟨rfl, rfl⟩ := hc
          refine ⟨new ++ [n], ?_, ?_⟩
          · show x.2 ++ [n] = _
            rw [show x.2 = l ++ new from hl, List.append_assoc]
          · exact hp.2.mono (fun more hmore => by rwa [List.append_assoc])
              fun r more hmore => by rwa [List.append_assoc]
  obtain ⟨new, hl, hp⟩ := key (p', w', l') hr
  have hnil : A (new ++ []) := hp.nil
  refine ⟨new, hl, by rwa [List.append_nil] at hnil, ?_⟩
  rintro r rfl
  have hend : B r (new ++ []) := hp.2
  rwa [List.append_nil] at hend

end Machine

end Effects
