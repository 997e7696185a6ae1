import MonkeyLang.Repl

namespace MonkeyLang

namespace Repl

def joined (lines : List (List Char)) : List Char := lines.flatMap (· ++ ['\n'])

/-- A blank line or a command. -/
def isAside (line : List Char) : Bool :=
  (Text.trim line).isEmpty || (Text.trim line).head? = some ':'

/-- A line that is read, with its backspaces done, and what comes of it. -/
structure Step where
  before : State
  line : List Char
  shown : List Output
  after : State

namespace Step

def aside (x : Step) : Bool := x.before.pending.isEmpty && isAside x.line

def text (x : Step) : List Char := x.before.extend x.line

/-- The text that the line completes. -/
def handed? (x : Step) : Option (List Char) :=
  if x.aside || needsMore x.text then none else some x.text

inductive Meant (x : Step) : Prop
  | aside (aside : x.aside = true) (same : x.after = x.before)
  | part (inside : x.aside = false) (more : needsMore x.text = true) (silent : x.shown = [])
      (waits : x.after = ⟨x.before.store, x.text⟩)
  | whole (inside : x.aside = false) (complete : needsMore x.text = false)
      (shown : x.shown = (evaluate x.before.store x.text).1)
      (runs : x.after = ⟨(evaluate x.before.store x.text).2, []⟩)

end Step

def State.steps (state : State) : List (List Char) → List Step
  | [] => []
  | typed :: rest =>
    match edited? typed with
    | none => []
    | some line =>
      match state.takeEdited line with
      | (shown, .line next) => ⟨state, line, shown, next⟩ :: next.steps rest
      | (_, .ending _) => []

def State.last (state : State) : List Step → State
  | [] => state
  | x :: rest => x.after.last rest

/-- The texts that are run, in their order. -/
def handed (steps : List Step) : List (List Char) := steps.filterMap Step.handed?

/-- The lines that go into texts, in their order. -/
def kept (steps : List Step) : List (List Char) := (steps.filter (!·.aside)).map Step.line

/-- The lines have open brackets from the first one on. -/
def Unfinished (lines : List (List Char)) : Prop :=
  ∀ k, 0 < k → k ≤ lines.length → needsMore (joined (lines.take k)) = true

/-- All brackets are closed behind the last line, and only there. -/
structure Complete (lines : List (List Char)) : Prop where
  nonempty : lines ≠ []
  closed : needsMore (joined lines) = false
  prefixes : ∀ k, 0 < k → k < lines.length → needsMore (joined (lines.take k)) = true

section Groups

variable {waiting : List (List Char)} {line : List Char}

theorem joined_append (lines more : List (List Char)) :
    joined (lines ++ more) = joined lines ++ joined more :=
  List.flatMap_append

theorem joined_flatten (groups : List (List (List Char))) :
    (groups.map joined).flatten = joined groups.flatten := by
  induction groups with
  | nil => rfl
  | cons group rest ih =>
    rw [List.map_cons, List.flatten_cons, List.flatten_cons, joined_append, ih]

theorem unfinished_nil : Unfinished [] := fun k some none => by
  rw [List.length_nil] at none
  omega

theorem Unfinished.concat (unfinished : Unfinished waiting)
    (more : needsMore (joined (waiting ++ [line])) = true) : Unfinished (waiting ++ [line]) := by
  intro k some within
  rcases Nat.lt_or_ge waiting.length k with all | less
  · rwa [List.take_of_length_le (by simp; omega)]
  · rw [List.take_append_of_le_length less]
    exact unfinished k some less

theorem Unfinished.complete (unfinished : Unfinished waiting)
    (closed : needsMore (joined (waiting ++ [line])) = false) : Complete (waiting ++ [line]) := by
  refine ⟨by simp, closed, fun k some within => ?_⟩
  have less : k ≤ waiting.length := by simp at within; omega
  rw [List.take_append_of_le_length less]
  exact unfinished k some less

end Groups

section Take

variable {state next : State} {line : List Char} {shown : List Output} {ending : Ending}

theorem meant_of_takeEdited (took : state.takeEdited line = (shown, .line next)) :
    (Step.mk state line shown next).Meant := by
  unfold State.takeEdited at took
  dsimp only at took
  split at took
  · rename_i blank
    cases took
    refine .aside ?_ rfl
    simp only [Bool.and_eq_true] at blank
    simp [Step.aside, isAside, blank]
  · split at took
    · rename_i command
      split at took
      · cases took
      · cases took
        refine .aside ?_ rfl
        simp only [Bool.and_eq_true] at command
        simp [Step.aside, isAside, command]
    · rename_i blank command
      have inside : (Step.mk state line shown next).aside = false := by
        simp only [Step.aside, isAside]
        rw [Bool.and_or_distrib_left, Bool.eq_false_iff.mpr blank]
        exact Bool.eq_false_iff.mpr command
      split at took
      · rename_i more
        cases took
        exact .part inside more rfl rfl
      · rename_i closed
        cases took
        exact .whole inside (Bool.eq_false_iff.mpr closed) rfl rfl

theorem quits_of_takeEdited (took : state.takeEdited line = (shown, .ending ending)) :
    state.pending = [] ∧ Command.ofText (Text.trim line) = .quit ∧
      shown = [.text Repl.farewell] ∧ ending = .farewell := by
  unfold State.takeEdited at took
  dsimp only at took
  split at took
  · cases took
  · split at took
    · rename_i command
      simp only [Bool.and_eq_true, List.isEmpty_iff] at command
      split at took
      · rename_i quits
        cases took
        refine ⟨command.1, ?_, rfl, rfl⟩
        cases meant : Command.ofText (Text.trim line) with
        | quit => rfl
        | help | bindings | clear | unknown =>
          rw [meant] at quits
          cases quits
      · cases took
    · split at took <;> cases took

end Take

namespace Step

variable {x : Step}

theorem handed?_eq_some (inside : x.aside = false) (closed : needsMore x.text = false) :
    x.handed? = some x.text := by
  simp [handed?, inside, closed]

theorem handed?_eq_none (more : needsMore x.text = true) : x.handed? = none := by
  simp [handed?, more]

theorem handed?_of_aside (aside : x.aside = true) : x.handed? = none := by
  simp [handed?, aside]

end Step

section Steps

theorem steps_reads {state next : State} {typed line : List Char} {shown : List Output}
    (reads : edited? typed = some line) (took : state.takeEdited line = (shown, .line next))
    (rest : List (List Char)) :
    state.steps (typed :: rest) = ⟨state, line, shown, next⟩ :: next.steps rest := by
  rw [State.steps, reads]
  dsimp only
  rw [took]

/-- Each line is read in the state that the lines before it leave, unless one of them ends the
    session. -/
inductive Course : State → List (List Char) → List Step → Prop
  | finished (state : State) : Course state [] []
  | broken {state : State} {typed : List Char} (rest : List (List Char))
      (breaks : edited? typed = none) : Course state (typed :: rest) []
  | quit {state : State} {typed line : List Char} (rest : List (List Char))
      (reads : edited? typed = some line) (free : state.pending = [])
      (quits : Command.ofText (Text.trim line) = .quit) : Course state (typed :: rest) []
  | line {x : Step} {typed : List Char} {rest : List (List Char)} {later : List Step}
      (reads : edited? typed = some x.line) (meant : x.Meant) (course : Course x.after rest later) :
      Course x.before (typed :: rest) (x :: later)

theorem course_steps (state : State) (lines : List (List Char)) :
    Course state lines (state.steps lines) := by
  induction lines generalizing state with
  | nil => exact .finished state
  | cons typed rest ih =>
    cases reads : edited? typed with
    | none =>
      rw [State.steps, reads]
      exact .broken rest reads
    | some line =>
      rcases took : state.takeEdited line with ⟨shown, next | ending⟩
      · rw [steps_reads reads took]
        exact .line reads (meant_of_takeEdited took) (ih next)
      · obtain ⟨free, quits, -, -⟩ := quits_of_takeEdited took
        rw [State.steps, reads]
        dsimp only
        rw [took]
        exact .quit rest reads free quits

theorem session_steps (state : State) (lines : List (List Char)) :
    state.session lines =
      .after ((state.steps lines).flatMap fun x => .text x.before.prompt :: x.shown)
        ((state.last (state.steps lines)).session (lines.drop (state.steps lines).length)) := by
  induction lines generalizing state with
  | nil => rfl
  | cons typed rest ih =>
    cases reads : edited? typed with
    | none =>
      rw [State.steps, reads]
      rfl
    | some line =>
      rcases took : state.takeEdited line with ⟨shown, next | ending⟩
      · rw [steps_reads reads took, State.session, State.take, reads]
        dsimp only
        rw [took]
        dsimp only
        rw [ih next]
        simp [Transcript.after, State.last]
      · rw [State.steps, reads]
        dsimp only
        rw [took]
        rfl

theorem Course.groups {state : State} {lines : List (List Char)} {steps : List Step}
    (course : Course state lines steps) {waiting : List (List Char)}
    (held : state.pending = joined waiting) (unfinished : Unfinished waiting) :
    ∃ (groups : List (List (List Char))) (left : List (List Char)),
      handed steps = groups.map joined ∧ waiting ++ kept steps = groups.flatten ++ left ∧
      (state.last steps).pending = joined left ∧
      (∀ group ∈ groups, Complete group) ∧ Unfinished left := by
  induction course generalizing waiting with
  | finished | broken | quit =>
    exact ⟨[], waiting, rfl, List.append_nil _, held, by simp, unfinished⟩
  | @line x typed rest later reads meant course ih =>
    have text : x.text = joined (waiting ++ [x.line]) := by
      rw [Step.text, State.extend, held, joined_append]
      simp [joined]
    cases meant with
    | aside aside same =>
      obtain ⟨groups, left, texts, lines, last, complete, more⟩ :=
        ih (same ▸ held) unfinished
      refine ⟨groups, left, ?_, ?_, last, complete, more⟩
      · rw [handed, List.filterMap_cons_none (Step.handed?_of_aside aside)]
        exact texts
      · rw [kept, List.filter_cons_of_neg (by simp [aside])]
        exact lines
    | part inside open' silent waits =>
      have longer : x.after.pending = joined (waiting ++ [x.line]) := by rw [waits, ← text]
      obtain ⟨groups, left, texts, lines, last, complete, more⟩ :=
        ih longer (unfinished.concat (text ▸ open'))
      refine ⟨groups, left, ?_, ?_, last, complete, more⟩
      · rw [handed, List.filterMap_cons_none (Step.handed?_eq_none open')]
        exact texts
      · rw [kept, List.filter_cons_of_pos (by simp [inside]), List.map_cons]
        rw [List.append_assoc] at lines
        exact lines
    | whole inside closed shown runs =>
      have none : x.after.pending = joined [] := by
        rw [runs]
        rfl
      obtain ⟨groups, left, texts, lines, last, complete, more⟩ := ih none unfinished_nil
      refine ⟨(waiting ++ [x.line]) :: groups, left, ?_, ?_, last, ?_, more⟩
      · rw [handed, List.filterMap_cons_some (Step.handed?_eq_some inside closed), List.map_cons,
          ← text]
        exact congrArg _ texts
      · rw [kept, List.filter_cons_of_pos (by simp [inside]), List.map_cons, List.flatten_cons,
          List.append_assoc, List.append_assoc]
        exact congrArg _ (congrArg _ lines)
      · exact List.forall_mem_cons.mpr ⟨unfinished.complete (text ▸ closed), complete⟩

theorem Course.meant {state : State} {lines : List (List Char)} {steps : List Step}
    (course : Course state lines steps) : ∀ x ∈ steps, x.Meant := by
  induction course with
  | finished | broken | quit => simp
  | line reads meant course ih => exact List.forall_mem_cons.mpr ⟨meant, ih⟩

theorem Course.lines_eq {state : State} {lines : List (List Char)} {steps : List Step}
    (course : Course state lines steps) (plain : ∀ typed ∈ lines, Typed.backspace ∉ typed) :
    steps.map Step.line = lines.take steps.length := by
  induction course with
  | finished | broken | quit => rfl
  | line reads meant course ih =>
    rw [List.forall_mem_cons] at plain
    rw [edited?_of_plain plain.1] at reads
    rw [List.map_cons, List.length_cons, List.take_succ_cons, ih plain.2, Option.some.inj reads]

theorem Step.Meant.evaluates {x : Step} (meant : x.Meant) {text : List Char}
    (handed : x.handed? = some text) : needsMore text = false ∧
      x.shown = (evaluate x.before.store text).1 ∧
      x.after = ⟨(evaluate x.before.store text).2, []⟩ := by
  cases meant with
  | aside aside => cases (Step.handed?_of_aside aside).symm.trans handed
  | part inside more => cases (Step.handed?_eq_none more).symm.trans handed
  | whole inside closed shown runs =>
    obtain rfl := Option.some.inj ((Step.handed?_eq_some inside closed).symm.trans handed)
    exact ⟨closed, shown, runs⟩

theorem Step.Meant.waits {x : Step} (meant : x.Meant) (none : x.handed? = none) :
    x.after.store = x.before.store := by
  cases meant with
  | aside aside same => rw [same]
  | part inside more silent waits => rw [waits]
  | whole inside closed => cases (Step.handed?_eq_some inside closed).symm.trans none

end Steps

def stepsOf (lines : List (List Char)) : List Step := State.start.steps lines

def lastOf (lines : List (List Char)) : State := State.start.last (stepsOf lines)

/-- Where no backspace is typed, the lines that are read are the first ones as they are. -/
theorem lines_read_as_typed {lines : List (List Char)}
    (plain : ∀ typed ∈ lines, Typed.backspace ∉ typed) :
    (stepsOf lines).map Step.line = lines.take (stepsOf lines).length :=
  (course_steps .start lines).lines_eq plain

/-- Lines are read until the input ends, a command ends the session or a line cannot be typed. The
    texts that are run and what waits at the end are the lines in their order, each with a newline,
    without those that are blank or commands where nothing waits. Each text has its brackets closed
    behind its last line, and behind none before that. It is run once, in the store that the texts
    before it leave, and nothing waits after it, whatever it comes to; no other line changes the
    store. The session shows what the lines show. -/
theorem lines_go_into_texts (lines : List (List Char)) :
    Course .start lines (stepsOf lines) ∧
    (handed (stepsOf lines)).flatten ++ (lastOf lines).pending = joined (kept (stepsOf lines)) ∧
    (∃ (groups : List (List (List Char))) (left : List (List Char)),
      handed (stepsOf lines) = groups.map joined ∧ kept (stepsOf lines) = groups.flatten ++ left ∧
      (lastOf lines).pending = joined left ∧
      (∀ group ∈ groups, Complete group) ∧ Unfinished left) ∧
    (∀ x ∈ stepsOf lines,
      (∀ text, x.handed? = some text → needsMore text = false ∧
        x.shown = (evaluate x.before.store text).1 ∧
        x.after = ⟨(evaluate x.before.store text).2, []⟩) ∧
      (x.handed? = none → x.after.store = x.before.store)) ∧
    session lines =
      .after (.text banner :: (stepsOf lines).flatMap fun x => .text x.before.prompt :: x.shown)
        ((lastOf lines).session (lines.drop (stepsOf lines).length)) := by
  have course : Course .start lines (stepsOf lines) := course_steps .start lines
  have start : State.start.pending = joined [] := rfl
  have split := course.groups start unfinished_nil
  refine ⟨course, ?_, split, fun x member => ?_, ?_⟩
  · obtain ⟨groups, left, texts, inside, last, -, -⟩ := split
    rw [List.nil_append] at inside
    rw [lastOf, texts, last, inside, joined_flatten, joined_append]
  · have meant := course.meant x member
    exact ⟨fun text => meant.evaluates, meant.waits⟩
  · rw [session, session_steps]
    rfl

end Repl

end MonkeyLang
