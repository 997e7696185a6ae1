import MonkeyLang.Grammar

/-!
The automaton that finds derivations: the LALR(1) automaton of the grammar, as a table. It has no
default reductions, so at an error it stops as early as lookaheads admit.
-/

namespace MonkeyLang

/-- What stands next in the input: a token of some kind, or the end. -/
abbrev Lookahead := Option TokenKind

inductive Action
  | shift (target : Nat)
  | reduce (rule : Nat)
deriving DecidableEq

/-- What a state does: the kinds of tokens it takes, each with the state it leads to; the
    productions it reduces by, each behind the set of lookaheads at which it does so; and the
    nonterminals it goes on after, each with the state it leads to. Everything goes by numbers. -/
structure Row where
  shifts : List (Nat × Nat)
  reductions : List (Nat × Nat)
  gotos : List (Nat × Nat)
deriving DecidableEq

namespace Automaton

/-- The number of token kinds; it is the number of the end as a lookahead. -/
def kindCount : Nat := 37

def lookaheadNumber : Lookahead → Nat
  | some kind => TokenKind.all.idxOf kind
  | none => kindCount

def nonterminalCount : Nat := 38

def symbolNumber : Symbol → Nat
  | .terminal kind => TokenKind.all.idxOf kind
  | .nonterminal name => kindCount + Nonterminal.all.idxOf name

def symbolCount : Nat := kindCount + nonterminalCount

/-- The rows of the states. A set of lookaheads is the number whose binary digits stand for its
    members. -/
def rows : List Row :=
  [⟨[(0, 6), (1, 7), (2, 10), (24, 23), (28, 24), (17, 29), (21, 30), (4, 31), (8, 33), (9, 34),
     (10, 35), (11, 36), (5, 37), (6, 38), (7, 39), (12, 41)], [(0x2000000000, 1)], [(1, 1),
     (9, 2), (2, 3), (3, 4), (4, 5), (5, 8), (6, 9), (10, 11), (12, 12), (13, 13), (15, 14),
     (16, 15), (18, 16), (19, 17), (21, 18), (22, 19), (24, 20), (25, 21), (27, 22), (28, 25),
     (29, 26), (30, 27), (32, 28), (31, 32), (33, 40)]⟩,
   ⟨[], [(0x2000000000, 0)], []⟩,
   ⟨[], [(0x2000100000, 2), (0x8000, 14)], []⟩,
   ⟨[(0, 6), (1, 7), (2, 10), (24, 23), (28, 24), (17, 29), (21, 30), (4, 31), (8, 33), (9, 34),
     (10, 35), (11, 36), (5, 37), (6, 38), (7, 39), (12, 41)], [(0x2000100000, 3)], [(9, 42),
     (3, 43), (4, 5), (5, 8), (6, 9), (10, 11), (12, 12), (13, 13), (15, 14), (16, 15), (18, 16),
     (19, 17), (21, 18), (22, 19), (24, 20), (25, 21), (27, 22), (28, 25), (29, 26), (30, 27),
     (32, 28), (31, 32), (33, 40)]⟩,
   ⟨[], [(0x2011321ff7, 5)], []⟩,
   ⟨[], [(0x2011321ff7, 7)], []⟩,
   ⟨[(12, 41)], [], [(33, 44)]⟩,
   ⟨[(15, 46), (2, 10), (24, 23), (28, 24), (17, 29), (21, 30), (4, 31), (8, 33), (9, 34),
     (10, 35), (11, 36), (5, 37), (6, 38), (7, 39), (12, 41)], [], [(5, 45), (6, 47), (9, 48),
     (10, 11), (12, 12), (13, 13), (15, 14), (16, 15), (18, 16), (19, 17), (21, 18), (22, 19),
     (24, 20), (25, 21), (27, 22), (28, 25), (29, 26), (30, 27), (32, 28), (31, 32), (33, 40)]⟩,
   ⟨[(15, 49)], [], []⟩,
   ⟨[], [(0x2011321ff7, 12), (0x8000, 13)], []⟩,
   ⟨[(24, 23), (28, 24), (17, 29), (21, 30), (4, 31), (8, 33), (9, 34), (10, 35), (11, 36),
     (5, 37), (6, 38), (7, 39), (12, 41)], [], [(9, 50), (10, 11), (12, 12), (13, 13), (15, 14),
     (16, 15), (18, 16), (19, 17), (21, 18), (22, 19), (24, 20), (25, 21), (27, 22), (28, 25),
     (29, 26), (30, 27), (32, 28), (31, 32), (33, 40)]⟩,
   ⟨[(36, 52)], [(0x20005d8000, 20)], [(11, 51)]⟩,
   ⟨[], [(0x30005d8000, 22)], []⟩,
   ⟨[(35, 54)], [(0x30005d8000, 23)], [(14, 53)]⟩,
   ⟨[], [(0x38005d8000, 25)], []⟩,
   ⟨[(29, 56), (30, 57)], [(0x38005d8000, 26)], [(17, 55)]⟩,
   ⟨[], [(0x38605d8000, 28)], []⟩,
   ⟨[(31, 59), (32, 60), (33, 61), (34, 62)], [(0x38605d8000, 29)], [(20, 58)]⟩,
   ⟨[], [(0x3fe05d8000, 31)], []⟩,
   ⟨[(23, 64), (24, 65)], [(0x3fe05d8000, 32)], [(23, 63)]⟩,
   ⟨[], [(0x3fe1dd8000, 34)], []⟩,
   ⟨[(25, 67), (26, 68), (27, 69)], [(0x3fe1dd8000, 35)], [(26, 66)]⟩,
   ⟨[], [(0x3fefdd8000, 37)], []⟩,
   ⟨[(24, 23), (28, 24), (17, 29), (21, 30), (4, 31), (8, 33), (9, 34), (10, 35), (11, 36),
     (5, 37), (6, 38), (7, 39), (12, 41)], [], [(27, 70), (28, 25), (29, 26), (30, 27), (32, 28),
     (31, 32), (33, 40)]⟩,
   ⟨[(24, 23), (28, 24), (17, 29), (21, 30), (4, 31), (8, 33), (9, 34), (10, 35), (11, 36),
     (5, 37), (6, 38), (7, 39), (12, 41)], [], [(27, 71), (28, 25), (29, 26), (30, 27), (32, 28),
     (31, 32), (33, 40)]⟩,
   ⟨[(17, 72), (13, 73), (21, 74)], [(0x3fefdd8000, 53)], []⟩,
   ⟨[], [(0x3fefffa000, 57)], []⟩,
   ⟨[], [(0x3fefffa000, 58)], []⟩,
   ⟨[], [(0x3fefffa000, 59)], []⟩,
   ⟨[(2, 10), (24, 23), (28, 24), (17, 29), (21, 30), (4, 31), (8, 33), (9, 34), (10, 35),
     (11, 36), (5, 37), (6, 38), (7, 39), (12, 41)], [], [(5, 75), (6, 47), (9, 48), (10, 11),
     (12, 12), (13, 13), (15, 14), (16, 15), (18, 16), (19, 17), (21, 18), (22, 19), (24, 20),
     (25, 21), (27, 22), (28, 25), (29, 26), (30, 27), (32, 28), (31, 32), (33, 40)]⟩,
   ⟨[(2, 10), (24, 23), (28, 24), (17, 29), (21, 30), (4, 31), (8, 33), (9, 34), (10, 35),
     (11, 36), (5, 37), (6, 38), (7, 39), (12, 41)], [(0x400000, 73)], [(34, 76), (6, 47),
     (9, 48), (10, 11), (12, 12), (13, 13), (15, 14), (16, 15), (18, 16), (19, 17), (21, 18),
     (22, 19), (24, 20), (25, 21), (27, 22), (28, 25), (29, 26), (30, 27), (32, 28), (31, 32),
     (33, 40), (5, 77), (35, 78)]⟩,
   ⟨[(17, 79)], [], []⟩,
   ⟨[], [(0x3fefffa000, 63)], []⟩,
   ⟨[], [(0x3fefffa000, 64)], []⟩,
   ⟨[], [(0x3fefffa000, 65)], []⟩,
   ⟨[], [(0x3fefffa000, 66)], []⟩,
   ⟨[], [(0x3fefffa000, 67)], []⟩,
   ⟨[], [(0x3fefffa000, 68)], []⟩,
   ⟨[], [(0x3fefffa000, 69)], []⟩,
   ⟨[], [(0x3fefffa000, 70)], []⟩,
   ⟨[], [(0x3fefffa000, 71)], []⟩,
   ⟨[], [(0x3fefffe000, 72)], []⟩,
   ⟨[], [(0x2000100000, 4), (0x8000, 14)], []⟩,
   ⟨[], [(0x2011321ff7, 6)], []⟩,
   ⟨[(14, 80)], [], []⟩,
   ⟨[(15, 81)], [], []⟩,
   ⟨[], [(0x2011321ff7, 10)], []⟩,
   ⟨[], [(0x458000, 13)], []⟩,
   ⟨[], [(0x458000, 14)], []⟩,
   ⟨[], [(0x2011321ff7, 11)], []⟩,
   ⟨[(19, 83)], [], [(8, 82)]⟩,
   ⟨[(24, 23), (28, 24), (17, 29), (21, 30), (4, 31), (8, 33), (9, 34), (10, 35), (11, 36),
     (5, 37), (6, 38), (7, 39), (12, 41)], [], [(12, 84), (13, 13), (15, 14), (16, 15), (18, 16),
     (19, 17), (21, 18), (22, 19), (24, 20), (25, 21), (27, 22), (28, 25), (29, 26), (30, 27),
     (32, 28), (31, 32), (33, 40)]⟩,
   ⟨[], [(0x11221ff0, 38)], []⟩,
   ⟨[(24, 23), (28, 24), (17, 29), (21, 30), (4, 31), (8, 33), (9, 34), (10, 35), (11, 36),
     (5, 37), (6, 38), (7, 39), (12, 41)], [], [(15, 85), (16, 15), (18, 16), (19, 17), (21, 18),
     (22, 19), (24, 20), (25, 21), (27, 22), (28, 25), (29, 26), (30, 27), (32, 28), (31, 32),
     (33, 40)]⟩,
   ⟨[], [(0x11221ff0, 39)], []⟩,
   ⟨[(24, 23), (28, 24), (17, 29), (21, 30), (4, 31), (8, 33), (9, 34), (10, 35), (11, 36),
     (5, 37), (6, 38), (7, 39), (12, 41)], [], [(18, 86), (19, 17), (21, 18), (22, 19), (24, 20),
     (25, 21), (27, 22), (28, 25), (29, 26), (30, 27), (32, 28), (31, 32), (33, 40)]⟩,
   ⟨[], [(0x11221ff0, 40)], []⟩,
   ⟨[], [(0x11221ff0, 41)], []⟩,
   ⟨[(24, 23), (28, 24), (17, 29), (21, 30), (4, 31), (8, 33), (9, 34), (10, 35), (11, 36),
     (5, 37), (6, 38), (7, 39), (12, 41)], [], [(21, 87), (22, 19), (24, 20), (25, 21), (27, 22),
     (28, 25), (29, 26), (30, 27), (32, 28), (31, 32), (33, 40)]⟩,
   ⟨[], [(0x11221ff0, 42)], []⟩,
   ⟨[], [(0x11221ff0, 43)], []⟩,
   ⟨[], [(0x11221ff0, 44)], []⟩,
   ⟨[], [(0x11221ff0, 45)], []⟩,
   ⟨[(24, 23), (28, 24), (17, 29), (21, 30), (4, 31), (8, 33), (9, 34), (10, 35), (11, 36),
     (5, 37), (6, 38), (7, 39), (12, 41)], [], [(24, 88), (25, 21), (27, 22), (28, 25), (29, 26),
     (30, 27), (32, 28), (31, 32), (33, 40)]⟩,
   ⟨[], [(0x11221ff0, 46)], []⟩,
   ⟨[], [(0x11221ff0, 47)], []⟩,
   ⟨[(24, 23), (28, 24), (17, 29), (21, 30), (4, 31), (8, 33), (9, 34), (10, 35), (11, 36),
     (5, 37), (6, 38), (7, 39), (12, 41)], [], [(27, 89), (28, 25), (29, 26), (30, 27), (32, 28),
     (31, 32), (33, 40)]⟩,
   ⟨[], [(0x11221ff0, 48)], []⟩,
   ⟨[], [(0x11221ff0, 49)], []⟩,
   ⟨[], [(0x11221ff0, 50)], []⟩,
   ⟨[], [(0x3fefdd8000, 51)], []⟩,
   ⟨[], [(0x3fefdd8000, 52)], []⟩,
   ⟨[(2, 10), (24, 23), (28, 24), (17, 29), (21, 30), (4, 31), (8, 33), (9, 34), (10, 35),
     (11, 36), (5, 37), (6, 38), (7, 39), (12, 41)], [(0x40000, 73)], [(34, 90), (6, 47), (9, 48),
     (10, 11), (12, 12), (13, 13), (15, 14), (16, 15), (18, 16), (19, 17), (21, 18), (22, 19),
     (24, 20), (25, 21), (27, 22), (28, 25), (29, 26), (30, 27), (32, 28), (31, 32), (33, 40),
     (5, 77), (35, 78)]⟩,
   ⟨[(12, 41)], [], [(32, 91), (33, 40)]⟩,
   ⟨[(2, 10), (24, 23), (28, 24), (17, 29), (21, 30), (4, 31), (8, 33), (9, 34), (10, 35),
     (11, 36), (5, 37), (6, 38), (7, 39), (12, 41)], [], [(5, 92), (6, 47), (9, 48), (10, 11),
     (12, 12), (13, 13), (15, 14), (16, 15), (18, 16), (19, 17), (21, 18), (22, 19), (24, 20),
     (25, 21), (27, 22), (28, 25), (29, 26), (30, 27), (32, 28), (31, 32), (33, 40)]⟩,
   ⟨[(18, 93)], [], []⟩,
   ⟨[(22, 94)], [], []⟩,
   ⟨[(16, 95)], [(0x440000, 74)], []⟩,
   ⟨[(2, 10), (24, 23), (28, 24), (17, 29), (21, 30), (4, 31), (8, 33), (9, 34), (10, 35),
     (11, 36), (5, 37), (6, 38), (7, 39), (12, 41)], [(0x440000, 75)], [(5, 96), (6, 47), (9, 48),
     (10, 11), (12, 12), (13, 13), (15, 14), (16, 15), (18, 16), (19, 17), (21, 18), (22, 19),
     (24, 20), (25, 21), (27, 22), (28, 25), (29, 26), (30, 27), (32, 28), (31, 32), (33, 40)]⟩,
   ⟨[(12, 41)], [(0x40000, 79)], [(36, 97), (33, 98), (37, 99)]⟩,
   ⟨[(2, 10), (24, 23), (28, 24), (17, 29), (21, 30), (4, 31), (8, 33), (9, 34), (10, 35),
     (11, 36), (5, 37), (6, 38), (7, 39), (12, 41)], [], [(5, 100), (6, 47), (9, 48), (10, 11),
     (12, 12), (13, 13), (15, 14), (16, 15), (18, 16), (19, 17), (21, 18), (22, 19), (24, 20),
     (25, 21), (27, 22), (28, 25), (29, 26), (30, 27), (32, 28), (31, 32), (33, 40)]⟩,
   ⟨[], [(0x2011321ff7, 9)], []⟩,
   ⟨[(3, 101)], [(0x2011779ff7, 15)], []⟩,
   ⟨[(0, 6), (1, 7), (2, 10), (24, 23), (28, 24), (17, 29), (21, 30), (4, 31), (8, 33), (9, 34),
     (10, 35), (11, 36), (5, 37), (6, 38), (7, 39), (12, 41)], [(0x100000, 1)], [(1, 102), (9, 2),
     (2, 3), (3, 4), (4, 5), (5, 8), (6, 9), (10, 11), (12, 12), (13, 13), (15, 14), (16, 15),
     (18, 16), (19, 17), (21, 18), (22, 19), (24, 20), (25, 21), (27, 22), (28, 25), (29, 26),
     (30, 27), (32, 28), (31, 32), (33, 40)]⟩,
   ⟨[], [(0x30005d8000, 21)], []⟩,
   ⟨[], [(0x38005d8000, 24)], []⟩,
   ⟨[], [(0x38605d8000, 27)], []⟩,
   ⟨[], [(0x3fe05d8000, 30)], []⟩,
   ⟨[], [(0x3fe1dd8000, 33)], []⟩,
   ⟨[], [(0x3fefdd8000, 36)], []⟩,
   ⟨[(18, 103)], [], []⟩,
   ⟨[(17, 104)], [], []⟩,
   ⟨[(22, 105)], [], []⟩,
   ⟨[], [(0x3fefffa000, 60)], []⟩,
   ⟨[], [(0x3fefffa000, 61)], []⟩,
   ⟨[], [(0x11661ff4, 77)], []⟩,
   ⟨[(16, 106)], [(0x440000, 76)], []⟩,
   ⟨[(18, 107)], [], []⟩,
   ⟨[(16, 108)], [(0x40000, 80)], []⟩,
   ⟨[(12, 41)], [(0x40000, 81)], [(33, 109)]⟩,
   ⟨[(15, 110)], [], []⟩,
   ⟨[(2, 10), (19, 83)], [], [(7, 111), (8, 112), (6, 113)]⟩,
   ⟨[(20, 114)], [], []⟩,
   ⟨[], [(0x3fefffa000, 54)], []⟩,
   ⟨[(2, 10), (24, 23), (28, 24), (17, 29), (21, 30), (4, 31), (8, 33), (9, 34), (10, 35),
     (11, 36), (5, 37), (6, 38), (7, 39), (12, 41)], [(0x40000, 73)], [(34, 115), (6, 47),
     (9, 48), (10, 11), (12, 12), (13, 13), (15, 14), (16, 15), (18, 16), (19, 17), (21, 18),
     (22, 19), (24, 20), (25, 21), (27, 22), (28, 25), (29, 26), (30, 27), (32, 28), (31, 32),
     (33, 40), (5, 77), (35, 78)]⟩,
   ⟨[], [(0x3fefffa000, 56)], []⟩,
   ⟨[], [(0x11661ff4, 78)], []⟩,
   ⟨[(19, 83)], [], [(8, 116)]⟩,
   ⟨[], [(0x41000, 83)], []⟩,
   ⟨[(16, 117)], [(0x40000, 82)], []⟩,
   ⟨[], [(0x2011321ff7, 8)], []⟩,
   ⟨[], [(0x2011779ff7, 16)], []⟩,
   ⟨[], [(0x2011779ff7, 17)], []⟩,
   ⟨[], [(0x2011779ff7, 18)], []⟩,
   ⟨[], [(0x3fffffbfff, 19)], []⟩,
   ⟨[(18, 118)], [], []⟩,
   ⟨[], [(0x3fefffa000, 62)], []⟩,
   ⟨[], [(0x41000, 84)], []⟩,
   ⟨[], [(0x3fefffa000, 55)], []⟩]

def action (state : Nat) (lookahead : Lookahead) : Option Action :=
  match rows[state]? with
  | none => none
  | some row =>
    match row.shifts.lookup (lookaheadNumber lookahead) with
    | some target => some (.shift target)
    | none =>
      (row.reductions.find? (·.1.testBit (lookaheadNumber lookahead))).map fun (_, rule) =>
        .reduce rule

def goto (state : Nat) (name : Nonterminal) : Option Nat :=
  match rows[state]? with
  | none => none
  | some row => row.gotos.lookup (Nonterminal.all.idxOf name)

end Automaton

end MonkeyLang
