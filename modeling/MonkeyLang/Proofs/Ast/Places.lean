import MonkeyLang.Ast

namespace MonkeyLang

section Placing

variable (f : Span → Span)

mutual

def Expr.mapSpans : Expr → Expr
  | .int span n => .int (f span) n
  | .uint span n => .uint (f span) n
  | .float span x => .float (f span) x
  | .str span s => .str (f span) s
  | .bool span b => .bool (f span) b
  | .nil span => .nil (f span)
  | .var span name => .var (f span) name
  | .array span members => .array (f span) (mapSpansAll members)
  | .binary span op left right => .binary (f span) op left.mapSpans right.mapSpans
  | .unary span op operand => .unary (f span) op operand.mapSpans
  | .cond span test consequence none =>
    .cond (f span) test.mapSpans consequence.mapSpans none
  | .cond span test consequence (some alternative) =>
    .cond (f span) test.mapSpans consequence.mapSpans (some alternative.mapSpans)
  | .block span body => .block (f span) (mapSpansBody body)
  | .function span params body => .function (f span) params body.mapSpans
  | .call span callee args => .call (f span) callee.mapSpans (mapSpansAll args)
  | .method span receiver name nameSpan args =>
    .method (f span) receiver.mapSpans name (f nameSpan) (mapSpansAll args)
  | .index span target position => .index (f span) target.mapSpans position.mapSpans

def mapSpansAll : List Expr → List Expr
  | [] => []
  | e :: rest => e.mapSpans :: mapSpansAll rest

def Stmt.mapSpans : Stmt → Stmt
  | .bind span name e => .bind (f span) name e.mapSpans
  | .result span none => .result (f span) none
  | .result span (some e) => .result (f span) (some e.mapSpans)
  | .expr span e => .expr (f span) e.mapSpans

def mapSpansBody : List Stmt → List Stmt
  | [] => []
  | stmt :: rest => stmt.mapSpans :: mapSpansBody rest

end

theorem mapSpansAll_eq_map (es : List Expr) : mapSpansAll f es = es.map (·.mapSpans f) := by
  induction es with
  | nil => rfl
  | cons e rest ih => rw [mapSpansAll, ih, List.map_cons]

theorem mapSpansBody_eq_map (body : List Stmt) :
    mapSpansBody f body = body.map (·.mapSpans f) := by
  induction body with
  | nil => rfl
  | cons stmt rest ih => rw [mapSpansBody, ih, List.map_cons]

@[simp] theorem Expr.span_mapSpans (e : Expr) : (e.mapSpans f).span = f e.span := by
  fun_cases Expr.mapSpans f e <;> rfl

variable (g : Span → Span)

mutual

theorem Expr.mapSpans_mapSpans (e : Expr) : (e.mapSpans f).mapSpans g = e.mapSpans (g ∘ f) := by
  cases e with
  | int | uint | float | str | bool | nil | var => rfl
  | array span members =>
    simp only [Expr.mapSpans, mapSpansAll_mapSpansAll members, Function.comp_apply]
  | binary span op left right =>
    simp only [Expr.mapSpans, left.mapSpans_mapSpans, right.mapSpans_mapSpans, Function.comp_apply]
  | unary span op operand => simp only [Expr.mapSpans, operand.mapSpans_mapSpans, Function.comp_apply]
  | cond span test consequence alternative =>
    cases alternative with
    | none =>
      simp only [Expr.mapSpans, test.mapSpans_mapSpans, consequence.mapSpans_mapSpans,
        Function.comp_apply]
    | some other =>
      simp only [Expr.mapSpans, test.mapSpans_mapSpans, consequence.mapSpans_mapSpans,
        other.mapSpans_mapSpans, Function.comp_apply]
  | block span body => simp only [Expr.mapSpans, mapSpansBody_mapSpansBody body, Function.comp_apply]
  | function span params body => simp only [Expr.mapSpans, body.mapSpans_mapSpans, Function.comp_apply]
  | call span callee args =>
    simp only [Expr.mapSpans, callee.mapSpans_mapSpans, mapSpansAll_mapSpansAll args,
      Function.comp_apply]
  | method span receiver name nameSpan args =>
    simp only [Expr.mapSpans, receiver.mapSpans_mapSpans, mapSpansAll_mapSpansAll args,
      Function.comp_apply]
  | index span target position =>
    simp only [Expr.mapSpans, target.mapSpans_mapSpans, position.mapSpans_mapSpans,
      Function.comp_apply]

theorem mapSpansAll_mapSpansAll (es : List Expr) :
    mapSpansAll g (mapSpansAll f es) = mapSpansAll (g ∘ f) es := by
  cases es with
  | nil => rfl
  | cons e rest => simp only [mapSpansAll, e.mapSpans_mapSpans, mapSpansAll_mapSpansAll rest]

theorem Stmt.mapSpans_mapSpans (stmt : Stmt) :
    (stmt.mapSpans f).mapSpans g = stmt.mapSpans (g ∘ f) := by
  cases stmt with
  | bind span name e => simp only [Stmt.mapSpans, e.mapSpans_mapSpans, Function.comp_apply]
  | result span value =>
    cases value with
    | none => rfl
    | some e => simp only [Stmt.mapSpans, e.mapSpans_mapSpans, Function.comp_apply]
  | expr span e => simp only [Stmt.mapSpans, e.mapSpans_mapSpans, Function.comp_apply]

theorem mapSpansBody_mapSpansBody (body : List Stmt) :
    mapSpansBody g (mapSpansBody f body) = mapSpansBody (g ∘ f) body := by
  cases body with
  | nil => rfl
  | cons stmt rest =>
    simp only [mapSpansBody, stmt.mapSpans_mapSpans, mapSpansBody_mapSpansBody rest]

end

end Placing

def Program.mapSpans (f : Span → Span) (program : Program) : Program :=
  ⟨mapSpansBody f program.body⟩

/-- The same program after `n` further bytes were put in front of its text. -/
def Program.shift (n : Nat) : Program → Program := mapSpans (Span.shift n)

section Unplaced

def nowhere (_ : Span) : Span := default

def Expr.unplaced : Expr → Expr := mapSpans nowhere

def unplacedAll : List Expr → List Expr := mapSpansAll nowhere

def Stmt.unplaced : Stmt → Stmt := mapSpans nowhere

def unplacedBody : List Stmt → List Stmt := mapSpansBody nowhere

def Program.unplaced : Program → Program := mapSpans nowhere

theorem unplacedBody_mapSpansBody (f : Span → Span) (body : List Stmt) :
    unplacedBody (mapSpansBody f body) = unplacedBody body :=
  mapSpansBody_mapSpansBody f nowhere body

theorem unplacedBody_append (body rest : List Stmt) :
    unplacedBody (body ++ rest) = unplacedBody body ++ unplacedBody rest := by
  simp only [unplacedBody, mapSpansBody_eq_map, List.map_append]

end Unplaced

end MonkeyLang
