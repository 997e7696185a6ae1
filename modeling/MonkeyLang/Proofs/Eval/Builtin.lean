import MonkeyLang.Eval.Builtin
import MonkeyLang.Proofs.Eval.Triple
import MonkeyLang.Proofs.Store.Unfolding

namespace MonkeyLang

namespace Builtin

inductive Outcome (s : Store) : Except RuntimeError Value × Store → Prop
  | printed (output : String) : Outcome s (.ok .nil, { s with output })
  | flat {v : Value} {tree : Unfolding} (alone : v.flat? = some tree) : Outcome s (.ok v, s)
  | decoded {text : List Char} {id : ArrayId} {t : Store} (read : s.decode text = .ok (id, t)) :
      Outcome s (.ok (.array id), t)
  | refused {line : Nat} {fault : EncodeFault} {id : ArrayId}
      (failed : s.encode (s.members id).toList = .error fault) :
      Outcome s (.error ⟨.encode fault, line⟩, s)
  | failed {line : Nat} {fault : Fault} (other : ∀ f, fault ≠ .encode f) :
      Outcome s (.error ⟨fault, line⟩, s)

theorem printAll_eq (s : Store) (args : List Value) :
    ∃ output, printAll s args = { s with output } := by
  unfold printAll
  induction args generalizing s with
  | nil => exact ⟨s.output, rfl⟩
  | cons arg rest ih => exact ih (s.print (s.text arg ++ ['\n']))

theorem runOn_outcome (line : Nat) (arg : Value) (builtin : Builtin) (s : Store) :
    Outcome s ((builtin.runOn line arg).runIn s) := by
  fun_cases runOn line arg builtin with
  | case1 | case2 | case3 | case5 => exact .flat rfl
  | case4 | case7 | case9 => exact .failed fun f same => nomatch same
  | case6 id =>
    simp only [Eval.runIn_bind, Eval.runIn_read]
    cases written : s.encode (s.members id).toList with
    | ok text => exact .flat rfl
    | error fault => exact .refused written
  | case8 text =>
    simp only [Eval.runIn_bind, Eval.runIn_read]
    cases read : s.decode text.toList with
    | ok loaded => exact .decoded read
    | error fault => exact .failed fun f same => nomatch same

theorem run_outcome (line : Nat) (args : List Value) (builtin : Builtin) (s : Store) :
    Outcome s ((builtin.run line args).runIn s) := by
  fun_cases run line args builtin with
  | case1 =>
    obtain ⟨output, printed⟩ := printAll_eq s args
    change Outcome s (.ok .nil, printAll s args)
    rw [printed]
    exact .printed output
  | case2 _ arg => exact runOn_outcome line arg builtin s
  | case3 => exact .failed fun f same => nomatch same

end Builtin

end MonkeyLang
