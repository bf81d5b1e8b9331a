import Spork.Effects.Loop

/-!
# A loop among handlers

Under a cooperative scheduler a loop shares its memory with *handlers*: short pieces of code that
run to their end between two steps of the loop, and only where the loop is waiting for one of its
calls. Some calls are waited for (`awaits`) and some are made without letting anybody else in.

A configuration therefore remembers, besides the rest of the round and the world, whether the loop
is still *suspended* on its last call: the call is over, but the loop has not been resumed.
Handlers may run there, and while a call that is waited for is under way (`Config.isOpen`).  What
they may do is a relation `H`, which looks at the whole configuration; a restriction on when a
handler may run is a smaller `H`.

`reaches_wp` reduces a loop among handlers to the same loop on a machine of its own, `interrupted`,
in which every call that is waited for lets handlers in on both sides.
-/

set_option autoImplicit false

namespace Effects

namespace Task

variable {S : Sig} {W σ β : Type}

/-- What is left of the round, the world, and whether the loop is suspended on its last call. -/
structure Config (S : Sig) (W σ β : Type) where
  rest : Prog S (Next σ β)
  world : W
  suspended : Bool

/-- Handlers may run: the loop waits for the call it has made last, or for the one it makes now. -/
def Config.isOpen (awaits : S.Op → Bool) (c : Config S W σ β) : Bool :=
  match c.rest with
  | .call op _ => c.suspended || awaits op
  | .done _ => c.suspended

/-- One call of the loop, the start of its next round, or one handler. -/
inductive Step (M : Machine S W) (awaits : S.Op → Bool) (H : Config S W σ β → W → Prop)
    (body : σ → Prog S (Next σ β)) : Config S W σ β → Config S W σ β → Prop where
  | call {op : S.Op} {k : S.Outcome (S.Ret op) → Prog S (Next σ β)} {w w' : W} {b : Bool}
      {r : S.Outcome (S.Ret op)} (h : M w op r w') :
      Step M awaits H body ⟨.call op k, w, b⟩ ⟨k r, w', awaits op⟩
  | again {s : σ} {w : W} {b : Bool} :
      Step M awaits H body ⟨.done (.ok (.again s)), w, b⟩ ⟨body s, w, b⟩
  | handle {c : Config S W σ β} {w' : W} (hopen : c.isOpen awaits = true) (h : H c w') :
      Step M awaits H body c { c with world := w' }

/-- Any number of steps. -/
def Reaches (M : Machine S W) (awaits : S.Op → Bool) (H : Config S W σ β → W → Prop)
    (body : σ → Prog S (Next σ β)) (c c' : Config S W σ β) : Prop :=
  Relation.ReflTransGen (Step M awaits H body) c c'

/-! ## Verifying a loop among handlers -/

/-- The machine in which a call that is waited for lets handlers in, before and after it. -/
def interrupted (M : Machine S W) (awaits : S.Op → Bool) (K : W → W → Prop) : Machine S W :=
  fun w op r w' =>
    if awaits op then
      ∃ w₁ w₂, Relation.ReflTransGen K w w₁ ∧ M w₁ op r w₂ ∧ Relation.ReflTransGen K w₂ w'
    else M w op r w'

/-- What one handler keeps, any number of them keep. -/
theorem handlers_keep {K : W → W → Prop} {I : W → Prop} (hK : ∀ w w', K w w' → I w → I w')
    {w w' : W}
    (h : Relation.ReflTransGen K w w') (hw : I w) : I w' := by
  induction h with
  | refl => exact hw
  | tail _ hs ih => exact hK _ _ hs ih

/-- What handlers keep on either side of a call, and the call turns from one into the other. -/
theorem interrupted_post {M : Machine S W} {awaits : S.Op → Bool} {K : W → W → Prop}
    {P R : W → Prop} (hP : ∀ w w', K w w' → P w → P w') (hR : ∀ w w', K w w' → R w → R w')
    {op : S.Op}
    {r : S.Outcome (S.Ret op)} (hM : ∀ w w', M w op r w' → P w → R w') {w w' : W}
    (h : interrupted M awaits K w op r w') (hw : P w) : R w' := by
  unfold interrupted at h
  split at h
  · obtain ⟨w₁, w₂, h₁, hop, h₂⟩ := h
    exact handlers_keep hR h₂ (hM _ _ hop (handlers_keep hP h₁ hw))
  · exact hM _ _ h hw

section Rule

variable {M : Machine S W} {awaits : S.Op → Bool} {H : Config S W σ β → W → Prop}
  {body : σ → Prog S (Next σ β)} {K : W → W → Prop} {I : W → Prop} {J : σ → W → Prop}
  {Q : S.Outcome (Next σ β) → W → Prop}

/-- What every configuration of a run satisfies: while the loop is suspended, the rest of the round
is safe whatever handlers do next; otherwise it was safe when the loop last moved, and handlers have
run since then only if it waits for a call. -/
def Safe (M : Machine S W) (awaits : S.Op → Bool) (K : W → W → Prop) (I : W → Prop)
    (Q : S.Outcome (Next σ β) → W → Prop) (c : Config S W σ β) : Prop :=
  if c.suspended then
    ∀ w, Relation.ReflTransGen K c.world w → (interrupted M awaits K).wp I c.rest Q w
  else ∃ w, Relation.ReflTransGen K w c.world ∧ (interrupted M awaits K).wp I c.rest Q w ∧
    (w = c.world ∨ c.isOpen awaits = true)

theorem Safe.wp_done {c : Config S W σ β} (h : Safe M awaits K I Q c) {r : S.Outcome (Next σ β)}
    (hr : c.rest = .done r) : (interrupted M awaits K).wp I (.done r) Q c.world := by
  unfold Safe at h
  split at h
  · exact hr ▸ h _ .refl
  · rename_i hsuspended
    obtain ⟨w, _, hwp, hw | hopen⟩ := h
    · exact hw ▸ hr ▸ hwp
    · rw [Config.isOpen, hr] at hopen
      exact absurd hopen hsuspended

theorem Safe.call {op : S.Op} {k : S.Outcome (S.Ret op) → Prog S (Next σ β)} {w w' : W} {b : Bool}
    {r : S.Outcome (S.Ret op)} (h : Safe M awaits K I Q ⟨.call op k, w, b⟩) (hM : M w op r w') :
    Safe M awaits K I Q ⟨k r, w', awaits op⟩ := by
  obtain ⟨w₀, hw₀, hwp, hsame⟩ : ∃ w₀, Relation.ReflTransGen K w₀ w ∧
      (interrupted M awaits K).wp I (.call op k) Q w₀ ∧ (w₀ = w ∨ awaits op = true) := by
    unfold Safe at h
    split at h
    · exact ⟨w, .refl, h w .refl, .inl rfl⟩
    · rename_i hsuspended
      obtain ⟨w₀, hw₀, hwp, hsame⟩ := h
      refine ⟨w₀, hw₀, hwp, hsame.imp_right fun hopen => ?_⟩
      rw [Config.isOpen, Bool.or_eq_true] at hopen
      exact hopen.resolve_left hsuspended
  unfold Safe
  cases hop : awaits op with
  | true =>
    rw [if_pos rfl]
    intro w₁ hw₁
    refine hwp.2 r w₁ ?_
    rw [interrupted, if_pos hop]
    exact ⟨w, w', hw₀, hM, hw₁⟩
  | false =>
    have hw : w₀ = w := hsame.resolve_right (by simp [hop])
    subst hw
    rw [if_neg Bool.false_ne_true]
    refine ⟨w', .refl, hwp.2 r w' ?_, .inl rfl⟩
    rw [interrupted, if_neg (by simp [hop])]
    exact hM

theorem Safe.again (hbody : ∀ s w, J s w → (interrupted M awaits K).wp I (body s) Q w)
    (hagain : ∀ s w, Q (.ok (.again s)) w → J s w) {s : σ} {w : W} {b : Bool}
    (h : Safe M awaits K I Q ⟨.done (.ok (.again s)), w, b⟩) :
    Safe M awaits K I Q ⟨body s, w, b⟩ := by
  cases b with
  | true => exact fun w' hw' => hbody s w' (hagain s w' (h w' hw').2)
  | false => exact ⟨w, .refl, hbody s w (hagain s w (h.wp_done rfl).2), .inl rfl⟩

theorem Safe.handle {c : Config S W σ β} {w' : W} (hK : K c.world w')
    (hopen : c.isOpen awaits = true) (h : Safe M awaits K I Q c) :
    Safe M awaits K I Q { c with world := w' } := by
  unfold Safe at h ⊢
  split at h
  · rename_i hsuspended
    rw [if_pos hsuspended]
    exact fun w hw => h w (.head hK hw)
  · rename_i hsuspended
    obtain ⟨w, hw, hwp, _⟩ := h
    rw [if_neg hsuspended]
    exact ⟨w, hw.tail hK, hwp, .inr hopen⟩

theorem Safe.inv (hI : ∀ w w', K w w' → I w → I w') {c : Config S W σ β}
    (h : Safe M awaits K I Q c) : I c.world := by
  unfold Safe at h
  split at h
  · exact Machine.wp_inv (h _ .refl)
  · obtain ⟨w, hw, hwp, _⟩ := h
    exact handlers_keep hI hw (Machine.wp_inv hwp)

/-- **The rule for a loop among handlers.**  Verify the loop on the interrupted machine; then `I`
holds in every world of a run, whoever has moved last, and a round that is over has ended as it
should. -/
theorem reaches_wp (hH : ∀ c w', H c w' → K c.world w') (hI : ∀ w w', K w w' → I w → I w')
    (hbody : ∀ s w, J s w → (interrupted M awaits K).wp I (body s) Q w)
    (hagain : ∀ s w, Q (.ok (.again s)) w → J s w) {s : σ} {w : W} (hw : J s w)
    {c : Config S W σ β} (h : Reaches M awaits H body ⟨body s, w, false⟩ c) :
    I c.world ∧ ∀ r, c.rest = .done r → Q r c.world := by
  have key : Safe M awaits K I Q c := by
    induction h with
    | refl => exact ⟨w, .refl, hbody s w hw, .inl rfl⟩
    | tail _ hs ih =>
      cases hs with
      | call h => exact ih.call h
      | again => exact ih.again hbody hagain
      | handle hopen h => exact ih.handle (hH _ _ h) hopen
  exact ⟨key.inv hI, fun r hr => (key.wp_done hr).2⟩

end Rule

/-! ## Schedules

A run in which the world answers every call in one way is fixed by who moves when. -/

section Schedules

variable {ι : Type} {M : Machine S W} {awaits : S.Op → Bool} {H : Config S W σ β → W → Prop}
  {body : σ → Prog S (Next σ β)}

/-- Who moves next. -/
inductive Move (ι : Type) where
  | go
  | handle (i : ι)

/-- The next move, if it is possible. -/
def move (awaits : S.Op → Bool) (answer : W → (op : S.Op) → S.Outcome (S.Ret op) × W)
    (handler : ι → W → W) (body : σ → Prog S (Next σ β)) (c : Config S W σ β) :
    Move ι → Config S W σ β
  | .go =>
    match c.rest with
    | .call op k => ⟨k (answer c.world op).1, (answer c.world op).2, awaits op⟩
    | .done (.ok (.again s)) => { c with rest := body s }
    | .done _ => c
  | .handle i => if c.isOpen awaits then { c with world := handler i c.world } else c

/-- The run of a schedule. -/
def follow (awaits : S.Op → Bool) (answer : W → (op : S.Op) → S.Outcome (S.Ret op) × W)
    (handler : ι → W → W) (body : σ → Prog S (Next σ β)) (c : Config S W σ β) (ms : List (Move ι)) :
    Config S W σ β := ms.foldl (move awaits answer handler body) c

theorem follow_reaches {answer : W → (op : S.Op) → S.Outcome (S.Ret op) × W} {handler : ι → W → W}
    (hM : ∀ w op, M w op (answer w op).1 (answer w op).2) :
    ∀ (ms : List (Move ι)), (∀ i, .handle i ∈ ms → ∀ c, H c (handler i c.world)) →
      ∀ c : Config S W σ β, Reaches M awaits H body c (follow awaits answer handler body c ms)
  | [], _, _ => .refl
  | m :: ms, hH, c => by
    refine Relation.ReflTransGen.trans ?_
      (follow_reaches hM ms (fun i hi => hH i (List.mem_cons_of_mem m hi)) _)
    obtain ⟨rest, w, b⟩ := c
    cases m with
    | go =>
      cases rest with
      | call op k => exact .single (.call (hM w op))
      | done r =>
        match r with
        | .ok (.again s) => exact .single .again
        | .ok (.leave _) => exact .refl
        | .error _ => exact .refl
    | handle i =>
      rw [move]
      split
      · exact .single (.handle ‹_› (hH i List.mem_cons_self _))
      · exact .refl

end Schedules

/-! ## Histories

A history records every call, with its answer, and every handler of a run, in order. -/

section Histories

variable {ι α : Type} {M : Machine S W} {awaits : S.Op → Bool} {handler : ι → W → W}
  {body : σ → Prog S (Next σ β)} {c₀ : Config S W σ β}

/-- A call and how it came back, or a handler. -/
inductive Happening (S : Sig) (ι : Type) where
  | called (op : S.Op) (r : S.Outcome (S.Ret op))
  | handled (i : ι)

/-- The runs from `c₀` to a configuration, with what happened on the way. -/
inductive History (M : Machine S W) (awaits : S.Op → Bool) (handler : ι → W → W)
    (body : σ → Prog S (Next σ β)) (c₀ : Config S W σ β) :
    List (Happening S ι) → Config S W σ β → Prop where
  | start : History M awaits handler body c₀ [] c₀
  | call {es : List (Happening S ι)} {op : S.Op} {k : S.Outcome (S.Ret op) → Prog S (Next σ β)}
      {w w' : W} {b : Bool} {r : S.Outcome (S.Ret op)}
      (hist : History M awaits handler body c₀ es ⟨.call op k, w, b⟩) (h : M w op r w') :
      History M awaits handler body c₀ (es ++ [.called op r]) ⟨k r, w', awaits op⟩
  | again {es : List (Happening S ι)} {s : σ} {w : W} {b : Bool}
      (hist : History M awaits handler body c₀ es ⟨.done (.ok (.again s)), w, b⟩) :
      History M awaits handler body c₀ es ⟨body s, w, b⟩
  | handle {es : List (Happening S ι)} {c : Config S W σ β}
      (hist : History M awaits handler body c₀ es c) (hopen : c.isOpen awaits = true) (i : ι) :
      History M awaits handler body c₀ (es ++ [.handled i]) { c with world := handler i c.world }

/-- A configuration is reached just when some history leads to it. -/
theorem reaches_iff_history (handler : ι → W → W) {c : Config S W σ β} :
    Reaches M awaits (fun c w => ∃ i, w = handler i c.world) body c₀ c ↔
      ∃ es, History M awaits handler body c₀ es c := by
  constructor
  · intro h
    induction h with
    | refl => exact ⟨[], .start⟩
    | tail _ hs ih =>
      obtain ⟨es, hist⟩ := ih
      cases hs with
      | call h => exact ⟨_, hist.call h⟩
      | again => exact ⟨_, hist.again⟩
      | handle hopen h =>
        obtain ⟨i, rfl⟩ := h
        exact ⟨_, hist.handle hopen i⟩
  · rintro ⟨es, hist⟩
    induction hist with
    | start => exact .refl
    | call _ h ih => exact ih.tail (.call h)
    | again _ ih => exact ih.tail .again
    | handle _ hopen i ih => exact ih.tail (.handle hopen ⟨i, rfl⟩)

/-- What happens in the next move of a schedule. -/
def happening (awaits : S.Op → Bool) (answer : W → (op : S.Op) → S.Outcome (S.Ret op) × W)
    (c : Config S W σ β) : Move ι → List (Happening S ι)
  | .go =>
    match c.rest with
    | .call op _ => [.called op (answer c.world op).1]
    | .done _ => []
  | .handle i => if c.isOpen awaits then [.handled i] else []

/-- What happens in a schedule. -/
def happenings (awaits : S.Op → Bool) (answer : W → (op : S.Op) → S.Outcome (S.Ret op) × W)
    (handler : ι → W → W) (body : σ → Prog S (Next σ β)) :
    Config S W σ β → List (Move ι) → List (Happening S ι)
  | _, [] => []
  | c, m :: ms => happening awaits answer c m ++
    happenings awaits answer handler body (move awaits answer handler body c m) ms

theorem follow_history {answer : W → (op : S.Op) → S.Outcome (S.Ret op) × W}
    (hM : ∀ w op, M w op (answer w op).1 (answer w op).2) :
    ∀ (ms : List (Move ι)) {es : List (Happening S ι)} {c : Config S W σ β},
      History M awaits handler body c₀ es c →
        History M awaits handler body c₀ (es ++ happenings awaits answer handler body c ms)
          (follow awaits answer handler body c ms)
  | [], es, c, hist => by
    rw [happenings, List.append_nil]
    exact hist
  | m :: ms, es, c, hist => by
    rw [happenings, ← List.append_assoc]
    refine follow_history hM ms ?_
    obtain ⟨rest, w, b⟩ := c
    cases m with
    | go =>
      cases rest with
      | call op k => exact hist.call (hM w op)
      | done r =>
        rw [happening, List.append_nil]
        match r with
        | .ok (.again s) => exact hist.again
        | .ok (.leave _) => exact hist
        | .error _ => exact hist
    | handle i =>
      rw [happening, move]
      split
      · next hopen => exact hist.handle hopen i
      · rw [List.append_nil]
        exact hist

/-- `q` is what is left of `p` when `es` has happened. -/
inductive Left (p : Prog S α) : List (Happening S ι) → Prog S α → Prop where
  | start : Left p [] p
  | call {es : List (Happening S ι)} {op : S.Op} {k : S.Outcome (S.Ret op) → Prog S α}
      (h : Left p es (.call op k)) (r : S.Outcome (S.Ret op)) :
      Left p (es ++ [.called op r]) (k r)
  | handle {es : List (Happening S ι)} {q : Prog S α} (h : Left p es q) (i : ι) :
      Left p (es ++ [.handled i]) q

/-- A program makes its own calls only. -/
theorem Left.only {p q : Prog S α} {es : List (Happening S ι)} {C : S.Op → Prop} (hp : p.Only C)
    (h : Left p es q) : (∀ op r, Happening.called op r ∈ es → C op) ∧ q.Only C := by
  induction h with
  | start => exact ⟨fun _ _ h => (List.not_mem_nil h).elim, hp⟩
  | @call es op k _ r ih =>
    refine ⟨fun op' r' hm => ?_, ih.2.2 r⟩
    rcases List.mem_append.1 hm with hm | hm
    · exact ih.1 op' r' hm
    · cases List.mem_singleton.1 hm
      exact ih.2.1
  | handle _ i ih =>
    refine ⟨fun op r hm => ?_, ih.2⟩
    rcases List.mem_append.1 hm with hm | hm
    · exact ih.1 op r hm
    · cases List.mem_singleton.1 hm

/-- An assumption on the answers, as long as they satisfy it. -/
theorem Left.onlyGiven {p q : Prog S α} {es : List (Happening S ι)}
    {A : (op : S.Op) → S.Outcome (S.Ret op) → Prop} {C : S.Op → Prop} (hp : p.OnlyGiven A C)
    (h : Left p es q) (hes : ∀ op r, Happening.called op r ∈ es → A op r) : q.OnlyGiven A C := by
  induction h with
  | start => exact hp
  | call _ r ih =>
    have hrest := ih fun op r hm => hes op r (List.mem_append_left _ hm)
    exact hrest.2 r (hes _ r (List.mem_append_right _ (List.mem_singleton_self _)))
  | handle _ i ih => exact ih fun op r hm => hes op r (List.mem_append_left _ hm)

/-- A call in `C`. -/
def Happening.calls (C : S.Op → Prop) [DecidablePred C] : Happening S ι → Bool
  | .called op _ => decide (C op)
  | .handled _ => false

/-- The calls that a program has made are no longer ahead of it. -/
theorem Left.atMost {p q : Prog S α} {es : List (Happening S ι)} {C : S.Op → Prop}
    [DecidablePred C] {n : Nat} (hp : Prog.AtMost C n p) (h : Left p es q) :
    Prog.AtMost C (n - es.countP (Happening.calls C)) q := by
  induction h with
  | start => exact hp
  | @call es op k _ r ih =>
    rw [Prog.AtMost] at ih
    rw [List.countP_append, List.countP_singleton]
    by_cases hop : C op
    · rw [if_pos hop] at ih
      rw [Happening.calls, if_pos (decide_eq_true hop), ← Nat.sub_sub]
      exact ih.2 r
    · rw [if_neg hop] at ih
      rw [Happening.calls, if_neg (by rwa [decide_eq_true_eq]), Nat.add_zero]
      exact ih r
  | handle _ i ih =>
    rw [List.countP_append, List.countP_singleton]
    exact ih

/-- **What is left of a sequence**: it is still in its first part, or behind it. -/
theorem Left.bind_cases {p : Prog S β} {f : β → Prog S α} {q : Prog S α}
    {es : List (Happening S ι)} (h : Left (p >>= f) es q) :
    (∃ p', q = p' >>= f ∧ Left p es p') ∨
      ∃ b es₁ es₂, es = es₁ ++ es₂ ∧ Left p es₁ (.done (.ok b)) ∧ Left (f b) es₂ q := by
  induction h with
  | start => exact .inl ⟨p, rfl, .start⟩
  | @call es op k _ r ih =>
    rcases ih with ⟨p', hq, h⟩ | ⟨b, es₁, es₂, rfl, h₁, h₂⟩
    · cases p' with
      | call op' k' =>
        cases hq
        exact .inl ⟨k' r, rfl, h.call r⟩
      | done out =>
        cases out with
        | error e => cases hq
        | ok b =>
          have hb : f b = .call op k := hq.symm
          refine .inr ⟨b, es, [.called op r], rfl, h, ?_⟩
          rw [hb]
          exact Left.call .start r
    · exact .inr ⟨b, es₁, es₂ ++ [.called op r], List.append_assoc _ _ _, h₁, h₂.call r⟩
  | handle _ i ih =>
    rcases ih with ⟨p', hq, h⟩ | ⟨b, es₁, es₂, rfl, h₁, h₂⟩
    · exact .inl ⟨p', hq, h.handle i⟩
    · exact .inr ⟨b, es₁, es₂ ++ [.handled i], List.append_assoc _ _ _, h₁, h₂.handle i⟩

end Histories

end Task

end Effects
