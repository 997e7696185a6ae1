import MonkeyLang.Grammar.Lalr

/-!
The table of the automaton. Main statement: it is what the LALR(1) construction makes of the
grammar, state for state and lookahead for lookahead. It is evaluated with a search that gives a
state together with its number, where the construction looks the state up again.
-/

namespace MonkeyLang

namespace Lalr

def seek (core : Nat) : Nat → List Kernel → Option (Nat × Kernel)
  | _, [] => none
  | n, kernel :: rest =>
    bif Nat.beq kernel.core core then some (n, kernel) else seek core (n + 1) rest

theorem seek_eq (core n : Nat) (kernels : List Kernel) :
    seek core n kernels =
      (kernels.findIdx? (·.core = core)).map fun i => (n + i, kernels.getD i []) := by
  induction kernels generalizing n with
  | nil => rfl
  | cons kernel rest ih =>
    rw [seek, ih, List.findIdx?_cons]
    by_cases same : kernel.core = core
    · simp [same]
    · have differs : Nat.beq kernel.core core = false :=
        Bool.eq_false_iff.mpr fun yes => same (Nat.eq_of_beq_eq_true yes)
      rw [differs, cond_false, if_neg (by simpa using same), Option.map_map]
      congr 1
      funext i
      simp [Nat.add_assoc, Nat.add_comm 1]

namespace Construction

def absorbSought (c : Construction) (kernel : Kernel) : Construction :=
  match seek kernel.core 0 c.kernels with
  | none => ⟨c.kernels ++ [kernel], c.pending ++ [c.kernels.length]⟩
  | some (n, old) =>
    let joined := old.join kernel
    if joined = old then c
    else ⟨c.kernels.set n joined, if c.pending.contains n then c.pending else c.pending ++ [n]⟩

theorem absorb_eq (c : Construction) (kernel : Kernel) :
    c.absorb kernel = c.absorbSought kernel := by
  rw [absorb, absorbSought, seek_eq]
  cases c.kernels.findIdx? (·.core = kernel.core) with
  | none => rfl
  | some n => simp only [Option.map_some, Nat.zero_add]

def runSought : Nat → Construction → Construction
  | 0, c => c
  | fuel + 1, c =>
    match c.pending with
    | [] => c
    | n :: pending =>
      let found := Kernel.successors (c.kernels.getD n []).items
      runSought fuel (found.foldl (fun c (_, kernel) => c.absorbSought kernel) { c with pending })

theorem run_eq (fuel : Nat) (c : Construction) : c.run fuel = c.runSought fuel := by
  induction fuel generalizing c with
  | zero => rfl
  | succ fuel ih =>
    obtain ⟨kernels, pending⟩ := c
    cases pending with
    | nil => rfl
    | cons n pending => simp only [run, runSought, absorb_eq, ih]

end Construction

def kernelsWithin (fuel : Nat) : List Kernel :=
  (Construction.run fuel ⟨[startKernel], [0]⟩).kernels

def soughtWithin (fuel : Nat) : List Kernel :=
  (Construction.runSought fuel ⟨[startKernel], [0]⟩).kernels

-- This is shown for all numbers, since both sides would be evaluated to compare them at one.
theorem kernelsWithin_eq (fuel : Nat) : kernelsWithin fuel = soughtWithin fuel :=
  congrArg Construction.kernels (Construction.run_eq ..)

theorem kernels_eq : kernels = soughtWithin 1000 := by
  have within : kernels = kernelsWithin 1000 := rfl
  rw [within, kernelsWithin_eq]

end Lalr

theorem Automaton.rows_eq_lalr : Automaton.rows = Lalr.rows := by
  rw [Lalr.rows, Lalr.kernels_eq]
  decide +kernel

end MonkeyLang
