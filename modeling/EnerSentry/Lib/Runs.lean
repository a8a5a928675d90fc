import Mathlib.Data.List.Basic
import Mathlib.Data.List.Infix

/-!
Finite runs of a deterministic machine that answers every event with a list of
outputs. A run is described by the states it reaches, by its visits (every event
with the state that received it) and by its outputs. The rules below carry a
property of one step to every state of a run, also where the property only
survives the steps that meet a condition.
-/

namespace EnerSentry.Lib.Runs

variable {S E O M : Type*}

/-- A machine: the next state and the outputs of one event. -/
abbrev Step (S E O : Type*) := S → E → S × List O

def run (step : Step S E O) (s : S) : List E → S
  | [] => s
  | e :: es => run step (step s e).1 es

def outputs (step : Step S E O) (s : S) : List E → List O
  | [] => []
  | e :: es => (step s e).2 ++ outputs step (step s e).1 es

/-- The states a run passes through, the first and the last included. -/
def reached (step : Step S E O) (s : S) : List E → List S
  | [] => [s]
  | e :: es => s :: reached step (step s e).1 es

/-- Every event of a run with the state that received it. -/
def visits (step : Step S E O) (s : S) : List E → List (S × E)
  | [] => []
  | e :: es => (s, e) :: visits step (step s e).1 es

section Append
variable (step : Step S E O) (s : S) (es fs : List E) (e : E)

theorem run_append : run step s (es ++ fs) = run step (run step s es) fs := by
  induction es generalizing s with
  | nil => rfl
  | cons e es ih => simp only [List.cons_append, run, ih]

theorem outputs_append :
    outputs step s (es ++ fs) = outputs step s es ++ outputs step (run step s es) fs := by
  induction es generalizing s with
  | nil => rfl
  | cons e es ih => simp only [List.cons_append, outputs, run, ih, List.append_assoc]

@[simp] theorem run_concat : run step s (es ++ [e]) = (step (run step s es) e).1 := by
  rw [run_append]
  rfl

@[simp] theorem outputs_concat :
    outputs step s (es ++ [e]) = outputs step s es ++ (step (run step s es) e).2 := by
  rw [outputs_append]
  simp only [outputs, List.append_nil]

theorem visits_append :
    visits step s (es ++ fs) = visits step s es ++ visits step (run step s es) fs := by
  induction es generalizing s with
  | nil => rfl
  | cons e es ih => simp only [List.cons_append, visits, run, ih]

@[simp] theorem visits_concat :
    visits step s (es ++ [e]) = visits step s es ++ [(run step s es, e)] := by
  rw [visits_append]
  rfl

/-- The visits go through the events in their order. -/
@[simp] theorem visits_map_snd : (visits step s es).map Prod.snd = es := by
  induction es generalizing s with
  | nil => rfl
  | cons e es ih => simp only [visits, List.map_cons, ih]

end Append

section Reached
variable {step : Step S E O} {s t : S} {es : List E}

theorem start_mem_reached : s ∈ reached step s es := by
  cases es <;> simp [reached]

theorem mem_reached_iff : t ∈ reached step s es ↔ ∃ pre, pre <+: es ∧ t = run step s pre := by
  induction es generalizing s with
  | nil => simp [reached, run]
  | cons e es ih =>
    simp only [reached, List.mem_cons, ih]
    constructor
    · rintro (rfl | ⟨pre, isPrefix, rfl⟩)
      · exact ⟨[], List.nil_prefix, rfl⟩
      · exact ⟨e :: pre, by simpa using isPrefix, rfl⟩
    · rintro ⟨pre, isPrefix, rfl⟩
      cases pre with
      | nil => exact Or.inl rfl
      | cons head pre =>
        obtain ⟨rfl, rest⟩ := List.cons_prefix_cons.mp isPrefix
        exact Or.inr ⟨pre, rest, rfl⟩

theorem run_mem_reached : run step s es ∈ reached step s es :=
  mem_reached_iff.mpr ⟨es, List.prefix_refl es, rfl⟩

theorem visit_mem_reached {v : S × E} (visited : v ∈ visits step s es) :
    v.1 ∈ reached step s es ∧ (step v.1 v.2).1 ∈ reached step s es := by
  induction es generalizing s with
  | nil => simp [visits] at visited
  | cons e es ih =>
    rcases List.mem_cons.mp visited with rfl | later
    · exact ⟨List.mem_cons_self .., List.mem_cons_of_mem _ start_mem_reached⟩
    · exact (ih later).imp (List.mem_cons_of_mem _) (List.mem_cons_of_mem _)

/-- The state at the end of a beginning of a run receives the next event. -/
theorem visit_of_prefix {e : E} {pre : List E} (isPrefix : pre ++ [e] <+: es) :
    (run step s pre, e) ∈ visits step s es := by
  obtain ⟨later, rfl⟩ := isPrefix
  rw [visits_append, visits_concat]
  exact List.mem_append_left _ (List.mem_append_right _ (List.mem_singleton.mpr rfl))

/-- A visit is the event after some beginning of the run. -/
theorem exists_split {v : S × E} (visited : v ∈ visits step s es) :
    ∃ pre post, es = pre ++ v.2 :: post ∧ v.1 = run step s pre := by
  induction es generalizing s with
  | nil => simp [visits] at visited
  | cons e es ih =>
    rcases List.mem_cons.mp visited with rfl | later
    · exact ⟨[], es, rfl, rfl⟩
    · obtain ⟨pre, post, split, state⟩ := ih later
      exact ⟨e :: pre, post, congrArg (e :: ·) split, state⟩

/-- What a run puts out, its visits put out. -/
theorem mem_outputs_iff {o : O} : o ∈ outputs step s es ↔ ∃ v ∈ visits step s es, o ∈ (step v.1 v.2).2 := by
  induction es generalizing s with
  | nil => simp [outputs, visits]
  | cons e es ih => simp only [outputs, visits, List.mem_append, ih, List.exists_mem_cons_iff]

/-- A property that every step meeting `A` keeps holds in every state of a run
whose visits all meet `A`. -/
theorem reached_invariant (step : Step S E O) (es : List E) {I : S → Prop} {A : S → E → Prop}
    (start : I s)
    (keeps : ∀ s e, I s → A s e → I (step s e).1)
    (allowed : ∀ v ∈ visits step s es, A v.1 v.2) : ∀ t ∈ reached step s es, I t := by
  induction es generalizing s with
  | nil => simpa [reached] using start
  | cons e es ih =>
    simp only [visits, List.forall_mem_cons] at allowed
    simp only [reached, List.forall_mem_cons]
    exact ⟨start, ih (keeps s e start allowed.1) allowed.2⟩

/-- A property that every step keeps holds in every state of every run. -/
theorem reached_always (step : Step S E O) (es : List E) {I : S → Prop} (start : I s)
    (keeps : ∀ s e, I s → I (step s e).1) :
    ∀ t ∈ reached step s es, I t :=
  reached_invariant step es (A := fun _ _ => True) start (fun s e holds _ => keeps s e holds)
    (fun _ _ => trivial)

/-- What holds at the start with nothing put out, and is kept by every step that meets `A` as its outputs are
added, holds at the end of a run with all that it has put out. -/
theorem history_invariant (step : Step S E O) (es : List E) {I : S → List O → Prop} {A : S → E → Prop}
    (start : I s [])
    (keeps : ∀ s out e, I s out → A s e → I (step s e).1 (out ++ (step s e).2))
    (allowed : ∀ v ∈ visits step s es, A v.1 v.2) : I (run step s es) (outputs step s es) := by
  induction es using List.reverseRecOn with
  | nil => exact start
  | append_singleton es e ih =>
    rw [visits_concat, List.forall_mem_append, List.forall_mem_singleton] at allowed
    rw [run_concat, outputs_concat]
    exact keeps _ _ e (ih allowed.1) allowed.2

theorem history_always (step : Step S E O) (es : List E) {I : S → List O → Prop} (start : I s [])
    (keeps : ∀ s out e, I s out → I (step s e).1 (out ++ (step s e).2)) :
    I (run step s es) (outputs step s es) :=
  history_invariant step es (A := fun _ _ => True) start (fun s out e holds _ => keeps s out e holds)
    (fun _ _ => trivial)

/-- Exactness of a step condition. `B` holds in every run, `J` is the invariant that
carries `I` through the steps meeting `A`, and a step that does not meet `A` breaks
`I`: then `I` holds throughout a run if and only if every visit meets `A`. -/
theorem reached_iff (step : Step S E O) (es : List E) {B I J : S → Prop} {A : S → E → Prop}
    (base : B s) (baseKeeps : ∀ s e, B s → B (step s e).1)
    (start : J s) (sound : ∀ s, J s → I s)
    (keeps : ∀ s e, B s → J s → A s e → J (step s e).1)
    (breaks : ∀ s e, B s → I s → ¬A s e → ¬I (step s e).1) :
    (∀ t ∈ reached step s es, I t) ↔ ∀ v ∈ visits step s es, A v.1 v.2 := by
  constructor
  · intro holds v visited
    by_contra forbidden
    obtain ⟨before, after⟩ := visit_mem_reached visited
    exact breaks v.1 v.2 (reached_always step es base baseKeeps _ before) (holds _ before) forbidden
      (holds _ after)
  · intro allowed t member
    have both := reached_invariant step es (I := fun s => B s ∧ J s) (A := A) ⟨base, start⟩
      (fun s e holds meets => ⟨baseKeeps s e holds.1, keeps s e holds.1 holds.2 meets⟩)
      allowed t member
    exact sound t both.2

end Reached

/-- A machine that is mirrored in another one step by step is mirrored in its runs. -/
theorem run_mirrored {T F P : Type*} {step : Step S E O} {other : Step T F P} (image : S → T) (event : E → F)
    (one : ∀ s e, image (step s e).1 = (other (image s) (event e)).1) (s : S) (es : List E) :
    image (run step s es) = run other (image s) (es.map event) := by
  induction es generalizing s with
  | nil => rfl
  | cons e es ih => rw [run, ih, one, List.map_cons, run]

/-- The same machine beside a monitor that reads each step: the state before it, the
event and the outputs. -/
def watch (step : Step S E O) (track : S → M → E → List O → M) : Step (S × M) E O :=
  fun s e => (((step s.1 e).1, track s.1 s.2 e (step s.1 e).2), (step s.1 e).2)

section Watch
variable (step : Step S E O) (track : S → M → E → List O → M) (s : S × M) (e : E) (es : List E)

@[simp] theorem watch_fst : (watch step track s e).1.1 = (step s.1 e).1 := rfl

@[simp] theorem watch_snd :
    (watch step track s e).1.2 = track s.1 s.2 e (step s.1 e).2 := rfl

theorem run_watch : (run (watch step track) s es).1 = run step s.1 es := by
  have mirrored := run_mirrored Prod.fst id (watch_fst step track) s es
  rwa [List.map_id] at mirrored

theorem visits_watch :
    (visits (watch step track) s es).map (fun v => (v.1.1, v.2)) = visits step s.1 es := by
  induction es generalizing s with
  | nil => rfl
  | cons e es ih => exact congrArg _ (ih _)

end Watch

end EnerSentry.Lib.Runs
