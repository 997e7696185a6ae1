import MonkeyLang.Grammar.Automaton

/-!
The construction of the LALR(1) automaton. A state is a set of productions with a mark in each,
the items; states with the same items are one state, and the lookaheads of its items are collected
from all the ways that lead to it. Sets of lookaheads are the binary digits of a number.
-/

namespace MonkeyLang

namespace Lalr

open Automaton

structure NumberedRule where
  number : Nat
  lhs : Nat
  rhs : List Nat
deriving DecidableEq

def rules : List NumberedRule :=
  Production.all.zipIdx.map fun (rule, number) =>
    ⟨number, symbolNumber (.nonterminal rule.lhs), rule.rhs.map symbolNumber⟩

def saturate {α : Type} [DecidableEq α] (step : α → α) : Nat → α → α
  | 0, a => a
  | rounds + 1, a =>
    let next := step a
    if next = a then a else saturate step rounds next

def nullables : Nat :=
  saturate (fun known => rules.foldl (fun known rule =>
    if rule.rhs.all known.testBit then known ||| 1 <<< rule.lhs else known) known)
    nonterminalCount 0

def leadingIn (firsts : List Nat) : List Nat → Nat
  | [] => 0
  | s :: rest =>
    let here := firsts.getD s 0
    if nullables.testBit s then here ||| leadingIn firsts rest else here

def firsts : List Nat :=
  let terminals := (List.range symbolCount).map fun s => if s < kindCount then 1 <<< s else 0
  saturate (fun known => rules.foldr (fun rule known =>
    known.modify rule.lhs (· ||| leadingIn known rule.rhs)) known) nonterminalCount terminals

/-- A digit that stands for the lookaheads of the item under which a symbol is predicted. -/
def outerMark : Nat := kindCount + 1

def resolve (lookaheads outer : Nat) : Nat :=
  if lookaheads.testBit outerMark then lookaheads ^^^ 1 <<< outerMark ||| outer else lookaheads

def followOf (behind : List Nat) (outer : Nat) : Nat :=
  let here := leadingIn firsts behind
  if behind.all nullables.testBit then here ||| outer else here

/-- The productions that start with a nonterminal, by the numbers of the two nonterminals, with
    the lookaheads that may follow the second. -/
def leftCorners : List (Nat × Nat × Nat) :=
  rules.filterMap fun rule =>
    match rule.rhs with
    | s :: behind =>
      if s < kindCount then none
      else some (rule.lhs - kindCount, s - kindCount, followOf behind (1 <<< outerMark))
    | [] => none

/-- For all nonterminals the lookaheads that may follow them where they are predicted because one
    of them is; zero for those that are not. -/
def spreadOf (n : Nat) : List Nat :=
  let seed := (List.replicate nonterminalCount 0).set n (1 <<< outerMark)
  saturate (fun known => leftCorners.foldl (fun known (outer, inner, follow) =>
    let above := known.getD outer 0
    if above = 0 then known else known.modify inner (· ||| resolve follow above)) known)
    nonterminalCount seed

def spreads : List (List Nat) :=
  (List.range nonterminalCount).map spreadOf

def groups : List (List NumberedRule) :=
  (List.range nonterminalCount).map fun n => rules.filter (·.lhs = kindCount + n)

/-- A production with a mark: `passed` symbols stand before it and `ahead` behind it. -/
structure Item where
  rule : Nat
  passed : Nat
  ahead : List Nat
  follow : Nat
deriving DecidableEq

namespace Item

def core (item : Item) : Nat := item.rule * 8 + item.passed

end Item

/-- The items of a state whose mark has moved, in the order of their productions. -/
abbrev Kernel := List Item

namespace Kernel

def core (kernel : Kernel) : Nat := kernel.foldl (fun n item => n * 1024 + item.core + 1) 0

def join (a b : Kernel) : Kernel :=
  a.zipWith (fun x y => { x with follow := x.follow ||| y.follow }) b

def insert (item : Item) : Kernel → Kernel
  | [] => [item]
  | other :: rest =>
    if item.core < other.core then item :: other :: rest else other :: insert item rest

def predicted (kernel : Kernel) : List Nat :=
  kernel.foldl (fun known item =>
    match item.ahead with
    | s :: behind =>
      if s < kindCount then known
      else
        let outer := followOf behind item.follow
        known.zipWith (fun follow spread => follow ||| resolve spread outer)
          (spreads.getD (s - kindCount) [])
    | [] => known) (List.replicate nonterminalCount 0)

def items (kernel : Kernel) : List Item :=
  kernel ++ (kernel.predicted.zip groups).flatMap fun (follow, group) =>
    if follow = 0 then []
    else group.map fun rule => ⟨rule.number, 0, rule.rhs, follow⟩

def place (symbol : Nat) (item : Item) : List (Nat × Kernel) → List (Nat × Kernel)
  | [] => [(symbol, [item])]
  | (other, kernel) :: rest =>
    if symbol = other then (other, insert item kernel) :: rest
    else (other, kernel) :: place symbol item rest

def successors (items : List Item) : List (Nat × Kernel) :=
  items.foldl (fun reached item =>
    match item.ahead with
    | s :: rest => place s { item with passed := item.passed + 1, ahead := rest } reached
    | [] => reached) []

end Kernel

def startKernel : Kernel :=
  [⟨0, 0, [symbolNumber (.nonterminal .body)], 1 <<< kindCount⟩]

/-- The states found so far, and the numbers of those whose successors are to be looked at. -/
structure Construction where
  kernels : List Kernel
  pending : List Nat

namespace Construction

def absorb (c : Construction) (kernel : Kernel) : Construction :=
  match c.kernels.findIdx? (·.core = kernel.core) with
  | none => ⟨c.kernels ++ [kernel], c.pending ++ [c.kernels.length]⟩
  | some n =>
    let old := c.kernels.getD n []
    let joined := old.join kernel
    if joined = old then c
    else ⟨c.kernels.set n joined, if c.pending.contains n then c.pending else c.pending ++ [n]⟩

def run : Nat → Construction → Construction
  | 0, c => c
  | fuel + 1, c =>
    match c.pending with
    | [] => c
    | n :: pending =>
      let found := Kernel.successors (c.kernels.getD n []).items
      run fuel (found.foldl (fun c (_, kernel) => c.absorb kernel) { c with pending })

end Construction

def kernels : List Kernel :=
  (Construction.run 1000 ⟨[startKernel], [0]⟩).kernels

def rowOf (states : List Kernel) (kernel : Kernel) : Row :=
  let items := kernel.items
  let targets := (Kernel.successors items).map fun (symbol, reached) =>
    (symbol, states.findIdx (·.core = reached.core))
  ⟨targets.filter (·.1 < kindCount),
    (items.filter (·.ahead.isEmpty)).map fun item => (item.follow, item.rule),
    (targets.filter (kindCount ≤ ·.1)).map fun (symbol, state) => (symbol - kindCount, state)⟩

def rows : List Row := kernels.map (rowOf kernels)

end Lalr

end MonkeyLang
