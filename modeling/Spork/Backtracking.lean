import Mathlib.Data.List.Infix

/-!
# Backtracking

Regular expressions as a backtracking matcher runs through them.  `ends` lists where a match may
end, in the order in which the matcher tries, so that the match it finds is the first one
(`matchAt`).  A repetition takes one more round before it stops, and a round that takes nothing is
not tried again.

Whatever it tries, a match takes a front part of the text, and its groups are parts of the text
(`takes_ends`).
-/

set_option autoImplicit false

namespace Backtracking

/-- A pattern. -/
inductive Pattern where
  | nothing
  | char (p : Char → Bool)
  /-- `(?<=p)` -/
  | behind (p : Char → Bool)
  /-- `(?!p)` -/
  | notAhead (p : Char → Bool)
  | seq (first second : Pattern)
  | alt (first second : Pattern)
  | star (round : Pattern)
  | group (index : Nat) (inner : Pattern)

/-- `xy…`, one after the other. -/
def Pattern.all : List Pattern → Pattern
  | [] => .nothing
  | first :: rest => .seq first (Pattern.all rest)

/-- `r+` -/
def Pattern.plus (round : Pattern) : Pattern := .seq round (.star round)

/-- `r?` -/
def Pattern.opt (inner : Pattern) : Pattern := .alt inner .nothing

/-- A position in a text: the character before it, what follows, and the groups matched so far, the
last one first. -/
structure Point where
  prev : Option Char
  rest : List Char
  groups : List (Nat × List Char) := []

/-- The text between two positions. -/
def between (start stop : Point) : List Char :=
  start.rest.take (start.rest.length - stop.rest.length)

/-- Rounds of a repetition, at most `n` of them. -/
def rounds (step : Point → List Point) : Nat → Point → List Point
  | 0, pt => [pt]
  | n + 1, pt =>
    ((step pt).filter fun stop => stop.rest.length < pt.rest.length).flatMap (rounds step n) ++ [pt]

/-- Where a match from here may end. -/
def ends : Pattern → Point → List Point
  | .nothing, pt => [pt]
  | .char p, pt =>
    match pt.rest with
    | c :: cs => if p c then [{ pt with prev := some c, rest := cs }] else []
    | [] => []
  | .behind p, pt => if pt.prev.any p then [pt] else []
  | .notAhead p, pt => if pt.rest.head?.any p then [] else [pt]
  | .seq first second, pt => (ends first pt).flatMap (ends second)
  | .alt first second, pt => ends first pt ++ ends second pt
  | .star round, pt => rounds (ends round) pt.rest.length pt
  | .group index inner, pt =>
    (ends inner pt).map fun stop =>
      { stop with groups := (index, between pt stop) :: stop.groups }

/-- `pattern.match`: where the match ends. -/
def matchAt (pattern : Pattern) (pt : Point) : Option Point := (ends pattern pt).head?

/-- `pattern.search`, behind a character: the text in front of the match, and what follows it. -/
def search (pattern : Pattern) : Option Char → List Char → Option (List Char × List Char)
  | prev, [] => (matchAt pattern ⟨prev, [], []⟩).map fun stop => ([], stop.rest)
  | prev, c :: cs =>
    match matchAt pattern ⟨prev, c :: cs, []⟩ with
    | some stop => some ([], stop.rest)
    | none => (search pattern (some c) cs).map fun found => (c :: found.1, found.2)

/-! ## What a match takes -/

/-- From one position to another: a front part of the text is taken, and the new groups are parts of
the text. -/
structure Takes (start stop : Point) : Prop where
  suffix : stop.rest <:+ start.rest
  groups : ∀ g ∈ stop.groups, g ∈ start.groups ∨ g.2 <:+: start.rest

variable {start mid stop : Point}

theorem Takes.refl (pt : Point) : Takes pt pt := ⟨List.suffix_refl _, fun _ => .inl⟩

theorem Takes.trans (h : Takes start mid) (h' : Takes mid stop) : Takes start stop := by
  refine ⟨h'.suffix.trans h.suffix, fun g hg => ?_⟩
  rcases h'.groups g hg with hg | hg
  · exact h.groups g hg
  · exact .inr (hg.trans h.suffix.isInfix)

theorem takes_rounds {step : Point → List Point}
    (h : ∀ start, ∀ stop ∈ step start, Takes start stop) : ∀ (n : Nat) (start : Point),
    ∀ stop ∈ rounds step n start, Takes start stop
  | 0, start, stop, hm => by
    rw [List.mem_singleton.1 hm]
    exact Takes.refl start
  | n + 1, start, stop, hm => by
    rcases List.mem_append.1 hm with hm | hm
    · obtain ⟨mid, hmid, hm⟩ := List.mem_flatMap.1 hm
      exact (h start mid (List.mem_filter.1 hmid).1).trans (takes_rounds h n mid stop hm)
    · rw [List.mem_singleton.1 hm]
      exact Takes.refl start

/-- **A match takes a front part of the text**, and its groups are parts of the text. -/
theorem takes_ends : ∀ (pattern : Pattern) (start : Point), ∀ stop ∈ ends pattern start,
    Takes start stop
  | .nothing, start, stop, hm => by
    rw [List.mem_singleton.1 hm]
    exact Takes.refl start
  | .char p, ⟨prev, [], groups⟩, stop, hm => by cases hm
  | .char p, ⟨prev, c :: cs, groups⟩, stop, hm => by
    rw [ends] at hm
    dsimp only at hm
    split at hm
    · rw [List.mem_singleton.1 hm]
      exact ⟨List.suffix_cons c cs, fun _ => .inl⟩
    · cases hm
  | .behind p, start, stop, hm => by
    rw [ends] at hm
    split at hm
    · rw [List.mem_singleton.1 hm]
      exact Takes.refl start
    · cases hm
  | .notAhead p, start, stop, hm => by
    rw [ends] at hm
    split at hm
    · cases hm
    · rw [List.mem_singleton.1 hm]
      exact Takes.refl start
  | .seq first second, start, stop, hm => by
    obtain ⟨mid, hmid, hm⟩ := List.mem_flatMap.1 hm
    exact (takes_ends first start mid hmid).trans (takes_ends second mid stop hm)
  | .alt first second, start, stop, hm => by
    rcases List.mem_append.1 hm with hm | hm
    · exact takes_ends first start stop hm
    · exact takes_ends second start stop hm
  | .star round, start, stop, hm => takes_rounds (takes_ends round) _ start stop hm
  | .group index inner, start, stop, hm => by
    obtain ⟨mid, hmid, rfl⟩ := List.mem_map.1 hm
    have h := takes_ends inner start mid hmid
    refine ⟨h.suffix, fun g hg => ?_⟩
    rcases List.mem_cons.1 hg with rfl | hg
    · exact .inr (List.take_prefix _ _).isInfix
    · exact h.groups g hg

theorem takes_of_matchAt {pattern : Pattern} (h : matchAt pattern start = some stop) :
    Takes start stop :=
  takes_ends pattern start stop (List.mem_of_mem_head? (Option.mem_def.2 h))

end Backtracking
