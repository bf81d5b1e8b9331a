import Mathlib.Tactic.Common

/-!
# Programs that call out

A *program* over a signature `S` of operations is a tree: it is either finished, with a value or
with a raised error, or it makes one call and continues with whatever came back.  A call may come
back with a raised error as well, so "the collaborator raised" is just one more reply, and the
program decides by its continuation what that means.

Nothing here says what an operation *does*.  That is the business of `Effects.Machine`, which runs
the same tree against a world; because the tree only names its calls, one program can be run
sequentially, cut off half way, or interleaved with another one, without being written twice.

* `Prog.andThen` is the one sequencing primitive: it hands the *outcome*, value or error, to the
  rest.  `bind` and `tryCatch` are its two halves.
* `Prog` is a lawful monad, which is what lets a composed pipeline be flattened by rewriting.
-/

set_option autoImplicit false

namespace Effects

/-- A signature: the operations a program may call, the type each one answers with, and the type
of the errors that a call or the program itself may raise. -/
structure Sig where
  /-- The operations, with their arguments. -/
  Op : Type
  /-- The type of an operation's answer. -/
  Ret : Op → Type
  /-- The errors. -/
  Err : Type

/-- What a call comes back with, or a program ends with. -/
abbrev Sig.Outcome (S : Sig) (α : Type) : Type := Except S.Err α

/-- A program over the signature `S` with values in `α`. -/
inductive Prog (S : Sig) (α : Type) : Type where
  /-- The program is finished: it returned a value or raised. -/
  | done (r : S.Outcome α) : Prog S α
  /-- The program calls `op` and continues with `k` on whatever comes back. -/
  | call (op : S.Op) (k : S.Outcome (S.Ret op) → Prog S α) : Prog S α

namespace Prog

variable {S : Sig} {α β γ : Type}

/-- Run `p`, then continue with its outcome. -/
def andThen : Prog S α → (S.Outcome α → Prog S β) → Prog S β
  | done r, f => f r
  | call op k, f => call op fun r => (k r).andThen f

/-- Raise `e`. -/
def raise (e : S.Err) : Prog S α := done (.error e)

/-- Make one call and return its answer. -/
def perform (op : S.Op) : Prog S (S.Ret op) := call op done

/-- Continue with the value of an outcome, or pass its error on. -/
def onValue (f : α → Prog S β) : S.Outcome α → Prog S β
  | .ok a => f a
  | .error e => raise e

/-- Continue with the error of an outcome, or pass its value on. -/
def onError (f : S.Err → Prog S α) : S.Outcome α → Prog S α
  | .ok a => done (.ok a)
  | .error e => f e

instance : Monad (Prog S) where
  pure a := done (.ok a)
  bind p f := p.andThen (onValue f)

/-- Run `p`; if it raises, continue with `h` on the error. -/
def tryCatch (p : Prog S α) (h : S.Err → Prog S α) : Prog S α := p.andThen (onError h)

theorem pure_def (a : α) : (pure a : Prog S α) = done (.ok a) := rfl

theorem bind_def (p : Prog S α) (f : α → Prog S β) : p >>= f = p.andThen (onValue f) := rfl

/-! ## The monad laws -/

theorem andThen_done : ∀ p : Prog S α, p.andThen done = p
  | done _ => rfl
  | call op k => by
    rw [andThen]
    exact congrArg (call op) (funext fun r => andThen_done (k r))

theorem andThen_assoc (f : S.Outcome α → Prog S β) (g : S.Outcome β → Prog S γ) :
    ∀ p : Prog S α, (p.andThen f).andThen g = p.andThen fun r => (f r).andThen g
  | done _ => rfl
  | call op k => by
    rw [andThen, andThen, andThen]
    exact congrArg (call op) (funext fun r => andThen_assoc f g (k r))

theorem onValue_pure : (onValue (fun a : α => (pure a : Prog S α))) = done := by
  funext r
  cases r <;> rfl

theorem onValue_andThen (f : α → Prog S β) (g : S.Outcome β → Prog S γ)
    (hg : ∀ e, g (.error e) = raise e) :
    (fun r => (onValue f r).andThen g) = onValue fun a => (f a).andThen g := by
  funext r
  cases r with
  | ok a => rfl
  | error e => exact hg e

theorem id_map_prog (p : Prog S α) : id <$> p = p := by
  show p.andThen (onValue fun a => pure (id a)) = p
  simp only [id_eq]
  rw [onValue_pure, andThen_done]

theorem bind_assoc_prog (p : Prog S α) (f : α → Prog S β) (g : β → Prog S γ) :
    p >>= f >>= g = p >>= fun a => f a >>= g := by
  rw [bind_def, bind_def, andThen_assoc, onValue_andThen f (onValue g) fun _ => rfl]
  rfl

instance : LawfulMonad (Prog S) :=
  LawfulMonad.mk' (Prog S) id_map_prog (fun _ _ => rfl) bind_assoc_prog

/-! ## Raising -/

end Prog

end Effects
