import MonkeyLang.Lines
import MonkeyLang.Proofs.Store.Loading

namespace MonkeyLang

def Stmt.parts : Stmt → List Expr
  | .bind _ _ e | .expr _ e => [e]
  | .result _ e => e.toList

/-- The expressions that stand in an expression, with nothing but statements in between. -/
def Expr.parts : Expr → List Expr
  | .int .. | .uint .. | .float .. | .str .. | .bool .. | .nil .. | .var .. => []
  | .array _ members => members
  | .binary _ _ left right => [left, right]
  | .unary _ _ operand => [operand]
  | .cond _ test consequence alternative => test :: consequence :: alternative.toList
  | .block _ body => body.flatMap Stmt.parts
  | .function _ _ body => [body]
  | .call _ callee args => callee :: args
  | .method _ receiver _ _ args => receiver :: args
  | .index _ target position => [target, position]

theorem sizeOf_toList_lt {part : Expr} {e : Option Expr} (inside : part ∈ e.toList) :
    sizeOf part < sizeOf e := by
  obtain rfl : e = some part := by simpa using inside
  simp

theorem Stmt.sizeOf_part_lt {part : Expr} {stmt : Stmt} (inside : part ∈ stmt.parts) :
    sizeOf part < sizeOf stmt := by
  cases stmt with
  | bind | expr =>
    obtain rfl := List.mem_singleton.mp inside
    simp only [bind.sizeOf_spec, expr.sizeOf_spec]
    omega
  | result span value =>
    have small := sizeOf_toList_lt inside
    simp only [result.sizeOf_spec]
    omega

theorem Expr.sizeOf_part_lt {part e : Expr} (inside : part ∈ e.parts) : sizeOf part < sizeOf e := by
  cases e with
  | int | uint | float | str | bool | nil | var => cases inside
  | array span members =>
    have small := List.sizeOf_lt_of_mem (show part ∈ members from inside)
    simp only [array.sizeOf_spec]
    omega
  | binary | index =>
    simp only [parts, List.mem_cons, List.not_mem_nil, or_false] at inside
    rcases inside with rfl | rfl <;> simp only [binary.sizeOf_spec, index.sizeOf_spec] <;> omega
  | unary | function =>
    obtain rfl := List.mem_singleton.mp inside
    simp only [unary.sizeOf_spec, function.sizeOf_spec]
    omega
  | cond span test consequence alternative =>
    simp only [parts, List.mem_cons] at inside
    simp only [cond.sizeOf_spec]
    rcases inside with rfl | rfl | inside
    · omega
    · omega
    · have small := sizeOf_toList_lt inside
      omega
  | block span body =>
    obtain ⟨stmt, member, inside⟩ := List.mem_flatMap.mp inside
    have small := Stmt.sizeOf_part_lt inside
    have listed := List.sizeOf_lt_of_mem member
    simp only [block.sizeOf_spec]
    omega
  | call | method =>
    simp only [call.sizeOf_spec, method.sizeOf_spec]
    rcases List.mem_cons.mp inside with rfl | inside
    · omega
    · have small := List.sizeOf_lt_of_mem inside
      omega

theorem Expr.of_parts {P : Expr → Prop} (each : ∀ e, (∀ part ∈ e.parts, P part) → P e) (e : Expr) :
    P e :=
  each e fun part _ => of_parts each part
termination_by sizeOf e
decreasing_by exact sizeOf_part_lt ‹_›

inductive Program.Has (program : Program) : Expr → Prop
  | stmt {item : Stmt} {e : Expr} (member : item ∈ program.body) (inside : e ∈ item.parts) :
      Has program e
  | part {whole e : Expr} (outer : Has program whole) (inside : e ∈ whole.parts) : Has program e

/-- Which code there is, with the line table of the text that it stands in. -/
structure Corpus where
  has : LineIndex → Expr → Prop
  parts : ∀ lines e, has lines e → ∀ part ∈ e.parts, has lines part

namespace Corpus

def all : Corpus := ⟨fun _ _ => True, fun _ _ _ _ _ => trivial⟩

variable (W : Corpus) (lines : LineIndex)

def HasAll (es : List Expr) : Prop := ∀ e ∈ es, W.has lines e

def HasBody (body : List Stmt) : Prop := ∀ stmt ∈ body, W.HasAll lines stmt.parts

theorem all_hasBody (body : List Stmt) : all.HasBody lines body := fun _ _ _ _ => trivial

theorem HasAll.cons {W : Corpus} {lines : LineIndex} {e : Expr} {rest : List Expr}
    (all : W.HasAll lines (e :: rest)) : W.has lines e ∧ W.HasAll lines rest :=
  List.forall_mem_cons.mp all

theorem HasBody.cons {W : Corpus} {lines : LineIndex} {stmt : Stmt} {rest : List Stmt}
    (all : W.HasBody lines (stmt :: rest)) : W.HasAll lines stmt.parts ∧ W.HasBody lines rest :=
  List.forall_mem_cons.mp all

theorem hasBody_of_block {W : Corpus} {lines : LineIndex} {span : Span} {body : List Stmt}
    (block : W.has lines (.block span body)) : W.HasBody lines body :=
  fun stmt member e inside =>
    W.parts lines _ block e (List.mem_flatMap.mpr ⟨stmt, member, inside⟩)

end Corpus

def Closure.Coded (W : Corpus) (c : Closure) : Prop :=
  ∃ span, W.has c.lines (.function span c.params c.body)

theorem Closure.Coded.body {W : Corpus} {c : Closure} (coded : c.Coded W) :
    W.has c.lines c.body := by
  obtain ⟨span, literal⟩ := coded
  exact W.parts _ _ literal c.body List.mem_cons_self

def Value.Coded (W : Corpus) : Value → Prop
  | closure c => c.Coded W
  | returned value => value.Coded W
  | _ => True

namespace Value

variable {W : Corpus}

theorem coded_all (v : Value) : v.Coded Corpus.all := by
  induction v with
  | returned value ih => exact ih
  | closure c => exact ⟨default, trivial⟩
  | _ => trivial

theorem Coded.unwrap {v : Value} (coded : v.Coded W) : v.unwrap.Coded W := by
  cases v with
  | returned value => exact coded
  | _ => exact coded

theorem coded_of_flat {v : Value} {tree : Unfolding} (alone : v.flat? = some tree) :
    v.Coded W := by
  cases v with
  | returned | closure => cases alone
  | _ => trivial

theorem ofData_coded : OfData (Coded W) := ⟨fun _ _ alone => coded_of_flat alone, fun _ => trivial⟩

end Value

abbrev Store.Coded (W : Corpus) (s : Store) : Prop := s.Holds (Value.Coded W)

theorem Store.coded_all (s : Store) : s.Coded Corpus.all :=
  ⟨fun _ v _ => v.coded_all, fun _ binding _ => binding.2.coded_all⟩

theorem Store.coded_initial (W : Corpus) : initial.Coded W := holds_initial _

end MonkeyLang
