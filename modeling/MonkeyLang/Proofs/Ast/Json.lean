import MonkeyLang.Ast.Json
import MonkeyLang.Proofs.Json.Unique
import MonkeyLang.Proofs.Store.Corpus

namespace MonkeyLang

section Nodes

variable {span other : Span} {node content : Json} {kind : String} {parts : List (String × Json)}

theorem Span.json_inj : span.json = other.json ↔ span = other := by
  obtain ⟨start, stop⟩ := span
  obtain ⟨start', stop'⟩ := other
  simp [Span.json]

namespace Json

@[simp] theorem placed_inj {node' : Json} :
    placed node span = placed node' other ↔ node = node' ∧ span = other := by
  simp [placed, Span.json_inj]

@[simp] theorem tagged_inj {kind' : String} {content' : Json} :
    tagged kind content = tagged kind' content' ↔ kind = kind' ∧ content = content' := by
  simp [tagged]

@[simp] theorem record_inj {kind' : String} {parts' : List (String × Json)} :
    record kind parts = record kind' parts' ↔ kind = kind' ∧ parts = parts' := by
  simp [record]

@[simp] theorem finite_placed : (placed node span).Finite ↔ node.Finite := by
  simp [placed, Span.json, Finite, MembersFinite]

@[simp] theorem finite_tagged : (tagged kind content).Finite ↔ content.Finite := by
  simp [tagged, Finite, MembersFinite]

@[simp] theorem finite_record : (record kind parts).Finite ↔ MembersFinite parts := by
  simp [record, Finite, MembersFinite]

theorem allFinite_iff {items : List Json} : AllFinite items ↔ ∀ item ∈ items, item.Finite := by
  induction items with
  | nil => simp [AllFinite]
  | cons item items ih => rw [AllFinite, ih, List.forall_mem_cons]

def label? : Json → Option String
  | .object ((_, .str kind) :: _) => some kind
  | .object ((_, .object ((kind, _) :: _)) :: _) => some kind
  | _ => none

end Json

end Nodes

section Operators

theorem StrictOp.name_inj {op op' : StrictOp} (same : op.name = op'.name) : op = op' := by
  cases op <;> cases op' <;> first | rfl | exact absurd same (by decide)

theorem LogicOp.name_inj {op op' : LogicOp} (same : op.name = op'.name) : op = op' := by
  cases op <;> cases op' <;> first | rfl | exact absurd same (by decide)

theorem BinOp.name_inj {op op' : BinOp} (same : op.name = op'.name) : op = op' := by
  have apart (strict : StrictOp) (logic : LogicOp) : strict.name ≠ logic.name := by
    cases strict <;> cases logic <;> decide
  cases op with
  | strict op =>
    cases op' with
    | strict op' => exact congrArg strict (StrictOp.name_inj same)
    | logic op' => exact absurd same (apart op op')
  | logic op =>
    cases op' with
    | strict op' => exact absurd same.symm (apart op' op)
    | logic op' => exact congrArg logic (LogicOp.name_inj same)

theorem UnOp.name_inj {op op' : UnOp} (same : op.name = op'.name) : op = op' := by
  cases op <;> cases op' <;> first | rfl | exact absurd same (by decide)

end Operators

def Expr.label : Expr → String
  | .int .. => "IntLit"
  | .uint .. => "UIntLit"
  | .float .. => "FloatLit"
  | .str .. => "StringLit"
  | .bool .. => "BoolLit"
  | .nil .. => "Nil"
  | .var .. => "Var"
  | .array .. => "Array"
  | .binary .. => "Binary"
  | .unary .. => "Unary"
  | .cond .. => "If"
  | .block .. => "Block"
  | .function .. => "Function"
  | .call .. => "Call"
  | .method .. => "MethodCall"
  | .index .. => "Index"

def Stmt.label : Stmt → String
  | .bind .. => "Let"
  | .result .. => "Return"
  | .expr .. => "Expr"

theorem Expr.label?_json (e : Expr) : e.json.label? = some e.label := by
  fun_cases Expr.json e <;> rfl

theorem Expr.json_ne_null (e : Expr) : e.json ≠ .null := by
  fun_cases Expr.json e <;> exact nofun

def optionJson : Option Expr → Json
  | none => .null
  | some e => e.json

theorem Expr.json_cond (span : Span) (test consequence : Expr) (alternative : Option Expr) :
    (cond span test consequence alternative).json =
      .placed (.record "If" [("cond", test.json), ("then_branch", consequence.json),
        ("else_branch", optionJson alternative)]) span := by
  cases alternative <;> rfl

theorem Stmt.json_result (span : Span) (value : Option Expr) :
    (result span value).json = .placed (.tagged "Return" (optionJson value)) span := by
  cases value <;> rfl

theorem Stmt.label?_json (stmt : Stmt) : stmt.json.label? = some stmt.label := by
  fun_cases Stmt.json stmt <;> rfl

theorem exprsJson_eq_map (es : List Expr) : exprsJson es = es.map Expr.json := by
  induction es with
  | nil => rfl
  | cons e es ih => rw [exprsJson, ih, List.map_cons]

theorem stmtsJson_eq_map (body : List Stmt) : stmtsJson body = body.map Stmt.json := by
  induction body with
  | nil => rfl
  | cons stmt body ih => rw [stmtsJson, ih, List.map_cons]

section Injective

def Expr.ToldApart (a : Expr) : Prop := ∀ b : Expr, a.json = b.json → a = b

theorem eq_of_map_eq {α β : Type} {f : α → β} {xs ys : List α}
    (each : ∀ x ∈ xs, ∀ y, f x = f y → x = y) (same : xs.map f = ys.map f) : xs = ys := by
  induction xs generalizing ys with
  | nil => exact (List.map_eq_nil_iff.mp same.symm).symm
  | cons x xs ih =>
    obtain ⟨first, others⟩ := List.forall_mem_cons.mp each
    obtain ⟨y, rest, rfl, head, tail⟩ := List.map_eq_cons_iff.mp same.symm
    rw [first y head.symm, ih others tail.symm]

theorem optionJson_inj_of {x y : Option Expr} (each : ∀ e ∈ x.toList, e.ToldApart)
    (same : optionJson x = optionJson y) : x = y := by
  cases x with
  | none =>
    cases y with
    | none => rfl
    | some b => exact absurd same.symm b.json_ne_null
  | some a =>
    cases y with
    | none => exact absurd same a.json_ne_null
    | some b => exact congrArg some (each a (by simp) b same)

theorem Stmt.toldApart_of_parts {a : Stmt} (each : ∀ e ∈ a.parts, e.ToldApart) (b : Stmt)
    (same : a.json = b.json) : a = b := by
  have kind : a.label = b.label := by
    rw [← Option.some_inj, ← Stmt.label?_json, ← Stmt.label?_json, same]
  cases a with
  | bind span name value =>
    cases b with
    | bind span' name' value' =>
      obtain ⟨⟨rfl, part⟩, rfl⟩ : (name = name' ∧ value.json = value'.json) ∧ span = span' := by
        simpa [Stmt.json] using same
      rw [each value (by simp [Stmt.parts]) value' part]
    | _ => simp [Stmt.label] at kind
  | result span value =>
    cases b with
    | result span' value' =>
      rw [Stmt.json_result, Stmt.json_result] at same
      obtain ⟨part, rfl⟩ : optionJson value = optionJson value' ∧ span = span' := by
        simpa using same
      rw [optionJson_inj_of each part]
    | _ => simp [Stmt.label] at kind
  | expr span value =>
    cases b with
    | expr span' value' =>
      obtain ⟨part, rfl⟩ : value.json = value'.json ∧ span = span' := by
        simpa [Stmt.json] using same
      rw [each value (by simp [Stmt.parts]) value' part]
    | _ => simp [Stmt.label] at kind

theorem Expr.toldApart_of_parts {a : Expr} (each : ∀ part ∈ a.parts, part.ToldApart) : a.ToldApart := by
  intro b same
  -- The JSON names the kind, so only expressions of the same kind have to be compared by their parts.
  have kind : a.label = b.label := by
    rw [← Option.some_inj, ← Expr.label?_json, ← Expr.label?_json, same]
  cases a with
  | int span n =>
    cases b with
    | int span' n' => simpa [Expr.json, Int64.toInt_inj, and_comm] using same
    | _ => simp [Expr.label] at kind
  | uint span n =>
    cases b with
    | uint span' n' => simpa [Expr.json, UInt64.toNat_inj, and_comm] using same
    | _ => simp [Expr.label] at kind
  | float span x =>
    cases b with
    | float span' x' => simpa [Expr.json, and_comm] using same
    | _ => simp [Expr.label] at kind
  | str span s =>
    cases b with
    | str span' s' => simpa [Expr.json, and_comm] using same
    | _ => simp [Expr.label] at kind
  | bool span value =>
    cases b with
    | bool span' value' => simpa [Expr.json, and_comm] using same
    | _ => simp [Expr.label] at kind
  | nil span =>
    cases b with
    | nil span' => simpa [Expr.json] using same
    | _ => simp [Expr.label] at kind
  | var span name =>
    cases b with
    | var span' name' => simpa [Expr.json, and_comm] using same
    | _ => simp [Expr.label] at kind
  | array span members =>
    cases b with
    | array span' members' =>
      obtain ⟨items, rfl⟩ : members.map Expr.json = members'.map Expr.json ∧ span = span' := by
        simpa [Expr.json, exprsJson_eq_map] using same
      obtain rfl : members = members' := eq_of_map_eq each items
      rfl
    | _ => simp [Expr.label] at kind
  | binary span op left right =>
    cases b with
    | binary span' op' left' right' =>
      obtain ⟨⟨first, name, second⟩, rfl⟩ :
          (left.json = left'.json ∧ op.name = op'.name ∧ right.json = right'.json) ∧
            span = span' := by
        simpa [Expr.json] using same
      rw [each left (by simp [parts]) left' first, BinOp.name_inj name,
        each right (by simp [parts]) right' second]
    | _ => simp [Expr.label] at kind
  | unary span op operand =>
    cases b with
    | unary span' op' operand' =>
      obtain ⟨⟨name, part⟩, rfl⟩ :
          (op.name = op'.name ∧ operand.json = operand'.json) ∧ span = span' := by
        simpa [Expr.json] using same
      rw [UnOp.name_inj name, each operand (by simp [parts]) operand' part]
    | _ => simp [Expr.label] at kind
  | cond span test consequence alternative =>
    obtain ⟨first, second, other⟩ :
        test.ToldApart ∧ consequence.ToldApart ∧ ∀ e ∈ alternative.toList, e.ToldApart := by
      simpa only [parts, List.forall_mem_cons] using each
    cases b with
    | cond span' test' consequence' alternative' =>
      rw [Expr.json_cond, Expr.json_cond] at same
      obtain ⟨⟨same₁, same₂, same₃⟩, rfl⟩ :
          (test.json = test'.json ∧ consequence.json = consequence'.json ∧
            optionJson alternative = optionJson alternative') ∧ span = span' := by
        simpa using same
      rw [first test' same₁, second consequence' same₂, optionJson_inj_of other same₃]
    | _ => simp [Expr.label] at kind
  | block span body =>
    cases b with
    | block span' body' =>
      obtain ⟨items, rfl⟩ : body.map Stmt.json = body'.map Stmt.json ∧ span = span' := by
        simpa [Expr.json, stmtsJson_eq_map] using same
      rw [eq_of_map_eq (fun stmt member => Stmt.toldApart_of_parts fun e inside =>
        each e (List.mem_flatMap.mpr ⟨stmt, member, inside⟩)) items]
    | _ => simp [Expr.label] at kind
  | function span params body =>
    cases b with
    | function span' params' body' =>
      obtain ⟨⟨names, part⟩, rfl⟩ :
          (params.map Json.str = params'.map Json.str ∧ body.json = body'.json) ∧
            span = span' := by
        simpa [Expr.json] using same
      have injective : Function.Injective Json.str := fun _ _ => Json.str.inj
      rw [List.map_injective_iff.mpr injective names, each body (by simp [parts]) body' part]
    | _ => simp [Expr.label] at kind
  | call span callee args =>
    obtain ⟨first, others⟩ := List.forall_mem_cons.mp each
    cases b with
    | call span' callee' args' =>
      obtain ⟨⟨part, items⟩, rfl⟩ :
          (callee.json = callee'.json ∧ args.map Expr.json = args'.map Expr.json) ∧ span = span' := by
        simpa [Expr.json, exprsJson_eq_map] using same
      rw [first callee' part, eq_of_map_eq others items]
    | _ => simp [Expr.label] at kind
  | method span receiver name nameSpan args =>
    obtain ⟨first, others⟩ := List.forall_mem_cons.mp each
    cases b with
    | method span' receiver' name' nameSpan' args' =>
      obtain ⟨⟨part, ⟨rfl, rfl⟩, items⟩, rfl⟩ :
          (receiver.json = receiver'.json ∧ (name = name' ∧ nameSpan = nameSpan') ∧
            args.map Expr.json = args'.map Expr.json) ∧ span = span' := by
        simpa [Expr.json, exprsJson_eq_map] using same
      rw [first receiver' part, eq_of_map_eq others items]
    | _ => simp [Expr.label] at kind
  | index span target position =>
    cases b with
    | index span' target' position' =>
      obtain ⟨⟨first, second⟩, rfl⟩ :
          (target.json = target'.json ∧ position.json = position'.json) ∧ span = span' := by
        simpa [Expr.json] using same
      rw [each target (by simp [parts]) target' first,
        each position (by simp [parts]) position' second]
    | _ => simp [Expr.label] at kind

theorem Expr.json_inj {a b : Expr} : a.json = b.json ↔ a = b :=
  ⟨of_parts (fun _ => toldApart_of_parts) a b, congrArg json⟩

theorem Stmt.json_inj {a b : Stmt} : a.json = b.json ↔ a = b :=
  ⟨toldApart_of_parts (fun _ _ _ => Expr.json_inj.mp) b, congrArg json⟩

theorem Program.json_inj {p q : Program} : p.json = q.json ↔ p = q := by
  refine ⟨fun same => ?_, congrArg json⟩
  obtain ⟨body⟩ := p
  obtain ⟨body'⟩ := q
  have statements : body.map Stmt.json = body'.map Stmt.json := by
    simpa [json, stmtsJson_eq_map] using same
  rw [List.map_injective_iff.mpr (fun _ _ => Stmt.json_inj.mp) statements]

end Injective

section Finite

theorem optionJson_finite {x : Option Expr} (each : ∀ e ∈ x.toList, e.json.Finite) :
    (optionJson x).Finite := by
  cases x with
  | none => trivial
  | some e => exact each e (by simp)

theorem exprsJson_finite {es : List Expr} (each : ∀ e ∈ es, e.json.Finite) :
    (Json.list (exprsJson es)).Finite := by
  rw [Json.Finite, Json.allFinite_iff, exprsJson_eq_map]
  exact List.forall_mem_map.mpr each

theorem stmtsJson_finite {body : List Stmt} (each : ∀ stmt ∈ body, stmt.json.Finite) :
    (Json.list (stmtsJson body)).Finite := by
  rw [Json.Finite, Json.allFinite_iff, stmtsJson_eq_map]
  exact List.forall_mem_map.mpr each

theorem Stmt.finite_json {stmt : Stmt} (each : ∀ e ∈ stmt.parts, e.json.Finite) :
    stmt.json.Finite := by
  cases stmt with
  | bind | expr => simpa [json, Json.MembersFinite, Json.Finite, parts] using each
  | result span value =>
    rw [json_result, Json.finite_placed, Json.finite_tagged]
    exact optionJson_finite each

theorem Expr.finite_json_of_parts {e : Expr} (own : ∀ span x, e = float span x → x.isFinite = true)
    (each : ∀ part ∈ e.parts, part.json.Finite) : e.json.Finite := by
  cases e with
  | float span x => simpa [json, Json.Finite] using own span x rfl
  | int | uint | str | bool | nil | var => simp [json, Json.Finite]
  | array span members =>
    have items : (Json.list (exprsJson members)).Finite := exprsJson_finite each
    simpa [json] using items
  | binary | unary | index => simpa [json, Json.MembersFinite, Json.Finite, parts] using each
  | cond span test consequence alternative =>
    obtain ⟨first, second, other⟩ : test.json.Finite ∧ consequence.json.Finite ∧
        ∀ e ∈ alternative.toList, e.json.Finite := by
      simpa only [parts, List.forall_mem_cons] using each
    rw [json_cond, Json.finite_placed, Json.finite_record]
    exact ⟨first, second, optionJson_finite other, trivial⟩
  | block span body =>
    have statements : (Json.list (stmtsJson body)).Finite := stmtsJson_finite fun stmt member =>
      Stmt.finite_json fun e inside => each e (List.mem_flatMap.mpr ⟨stmt, member, inside⟩)
    simpa [json] using statements
  | function span params body =>
    have names : (Json.list (params.map .str)).Finite :=
      Json.allFinite_iff.mpr (List.forall_mem_map.mpr fun _ _ => trivial)
    simpa [json, Json.MembersFinite, parts, names] using each
  | call span callee args =>
    obtain ⟨first, others⟩ := List.forall_mem_cons.mp each
    simpa [json, Json.MembersFinite] using ⟨first, exprsJson_finite others⟩
  | method span receiver name nameSpan args =>
    obtain ⟨first, others⟩ := List.forall_mem_cons.mp each
    simpa [json, Json.MembersFinite, Json.Finite] using ⟨first, exprsJson_finite others⟩

/-- All doubles that are written in the program are finite. -/
def Program.Finite (program : Program) : Prop :=
  ∀ span x, program.Has (.float span x) → x.isFinite = true

theorem Program.Finite.json {program : Program} (finite : program.Finite) :
    program.json.Finite := by
  have each (e : Expr) (inside : program.Has e) : e.json.Finite := by
    induction e using Expr.of_parts with
    | each e ih =>
      refine Expr.finite_json_of_parts ?_ fun part member => ih part member (.part inside member)
      rintro span x rfl
      exact finite span x inside
  have statements : (Json.list (stmtsJson program.body)).Finite := stmtsJson_finite fun stmt member =>
    Stmt.finite_json fun e inside => each e (.stmt member inside)
  exact ⟨statements, trivial⟩

end Finite

/-- Programs with finite doubles have the same text only if they are the same, with their places,
    the kinds of their literals and the bits of their doubles. -/
theorem Program.json_text_inj {p q : Program} (finite : p.Finite) (finite' : q.Finite) :
    p.json.text = q.json.text ↔ p = q :=
  ⟨fun same => json_inj.mp (Json.text_inj finite.json finite'.json same), fun same => same ▸ rfl⟩

/-- The zeros of both signs have different texts. -/
theorem Program.json_text_zeros :
    (Program.mk [.expr default (.float default (.ofBits 0))]).json.text ≠
      (Program.mk [.expr default (.float default (.ofBits 0x8000000000000000))]).json.text := by
  have finite {x : Float} (own : x.isFinite = true) :
      Program.Finite ⟨[.expr default (.float default x)]⟩ := by
    intro span y inside
    suffices ∀ e, Has ⟨[.expr default (.float default x)]⟩ e → e = .float default x by
      obtain ⟨-, rfl⟩ := Expr.float.inj (this _ inside)
      exact own
    intro e inside
    induction inside with
    | stmt member inside =>
      obtain rfl := List.mem_singleton.mp member
      exact List.mem_singleton.mp inside
    | part outer inside whole =>
      subst whole
      cases inside
  intro same
  have programs := (json_text_inj (finite rfl) (finite rfl)).mp same
  have zeros : Float.ofBits 0 = .ofBits 0x8000000000000000 := by
    simpa using programs
  exact absurd zeros (by decide)

end MonkeyLang
