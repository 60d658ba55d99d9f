/-
  Braces in a list of statements mean nothing.

  A block among other statements may be replaced by the statements in it, and these may be blocks
  again.  `Program.spliced` does this wherever statements stand in a list, inside of branches too;
  only a block that is itself a branch of an `if` stays, since there a single statement is due.

  A block opens no scope and is executed as its statements are, so what is left to show is that
  statements that are executed in two portions are executed as one list (`Stmt.execAll_append`).
  That settles every way in which the first portion can end at once: a `halt` or an error in an
  inner block cuts the outer list just where it cuts the flat one.  The two programs are the same
  effect (`Program.run_spliced`), so they do the same in every session, whatever fails there.
-/
import NumScript.Proofs.Sequencing

namespace NumScript

/-! ## Splicing -/

/-- What the statement is in a list of statements: a block is the statements in it. -/
def Stmt.unbraced : Stmt → List Stmt
  | .block _ body => body
  | s => [s]

mutual

/-- The statement, with all blocks in the lists inside of it spliced into them. -/
def Stmt.spliced : Stmt → Stmt
  | .block brace body => .block brace (splicedAll body)
  | .expression e => .expression e
  | .halt keyword => .halt keyword
  | .ifThen keyword condition thenBranch => .ifThen keyword condition thenBranch.spliced
  | .ifElse keyword condition thenBranch elseBranch =>
    .ifElse keyword condition thenBranch.spliced elseBranch.spliced

/-- The statements, with all blocks among them and in the lists inside of them spliced. -/
def Stmt.splicedAll : List Stmt → List Stmt
  | [] => []
  | s :: rest => s.spliced.unbraced ++ splicedAll rest

end

/-- The program without blocks in its lists of statements. -/
def Program.spliced (p : Program) : Program :=
  ⟨Stmt.splicedAll p.body⟩

/-- The statement is a block. -/
def Stmt.isBlock : Stmt → Bool
  | .block _ _ => true
  | _ => false

mutual

/-- No list inside of the statement has a block among its statements. -/
def Stmt.IsFlat : Stmt → Prop
  | .block _ body => AreFlat body
  | .expression _ => True
  | .halt _ => True
  | .ifThen _ _ thenBranch => thenBranch.IsFlat
  | .ifElse _ _ thenBranch elseBranch => thenBranch.IsFlat ∧ elseBranch.IsFlat

/-- No block is among the statements, nor among those of a list inside of them. -/
def Stmt.AreFlat : List Stmt → Prop
  | [] => True
  | s :: rest => s.isBlock = false ∧ s.IsFlat ∧ AreFlat rest

end

/-- No list of statements in the program has a block among them. -/
def Program.IsFlat (p : Program) : Prop :=
  Stmt.AreFlat p.body

namespace Stmt

theorem unbraced_of_isBlock {s : Stmt} (h : s.isBlock = false) : s.unbraced = [s] := by
  cases s with
  | block brace body => cases h
  | _ => rfl

/-! ## Nothing but braces goes -/

theorem nodesAll_append (body body' : List Stmt) :
    nodesAll (body ++ body') = nodesAll body ++ nodesAll body' := by
  induction body with
  | nil => rfl
  | cons s rest ih => rw [List.cons_append, nodesAll, ih, nodesAll, List.append_assoc]

/-- Without its braces a block has the same nodes. -/
theorem nodesAll_unbraced (s : Stmt) : nodesAll s.unbraced = s.nodes := by
  cases s with
  | block brace body => rw [unbraced, nodes]
  | _ => rw [unbraced_of_isBlock rfl, nodesAll, nodesAll, List.append_nil]

mutual

/-- Splicing leaves the nodes as they are. -/
theorem nodes_spliced : ∀ s : Stmt, s.spliced.nodes = s.nodes
  | .block brace body => by rw [spliced, nodes, nodes, nodesAll_splicedAll body]
  | .expression e => by rw [spliced]
  | .halt keyword => by rw [spliced]
  | .ifThen keyword condition thenBranch => by
    rw [spliced, nodes, nodes, nodes_spliced thenBranch]
  | .ifElse keyword condition thenBranch elseBranch => by
    rw [spliced, nodes, nodes, nodes_spliced thenBranch, nodes_spliced elseBranch]

theorem nodesAll_splicedAll : ∀ body : List Stmt, nodesAll (splicedAll body) = nodesAll body
  | [] => by rw [splicedAll]
  | s :: rest => by
    rw [splicedAll, nodesAll_append, nodesAll_unbraced, nodes_spliced s,
      nodesAll_splicedAll rest, nodesAll]

end

/-! ## No block is left -/

theorem areFlat_append {body body' : List Stmt} (first : AreFlat body) (second : AreFlat body') :
    AreFlat (body ++ body') := by
  induction body with
  | nil => exact second
  | cons s rest ih =>
    rw [AreFlat] at first
    rw [List.cons_append, AreFlat]
    exact ⟨first.1, first.2.1, ih first.2.2⟩

/-- What is left of a flat statement without its braces is flat. -/
theorem areFlat_unbraced {s : Stmt} (h : s.IsFlat) : AreFlat s.unbraced := by
  cases s with
  | block brace body =>
    rw [IsFlat] at h
    exact h
  | _ =>
    rw [unbraced_of_isBlock rfl, AreFlat, AreFlat]
    exact ⟨rfl, h, trivial⟩

mutual

/-- A spliced statement is flat. -/
theorem isFlat_spliced : ∀ s : Stmt, s.spliced.IsFlat
  | .block brace body => by
    rw [spliced, IsFlat]
    exact areFlat_splicedAll body
  | .expression e => by
    rw [spliced, IsFlat]
    trivial
  | .halt keyword => by
    rw [spliced, IsFlat]
    trivial
  | .ifThen keyword condition thenBranch => by
    rw [spliced, IsFlat]
    exact isFlat_spliced thenBranch
  | .ifElse keyword condition thenBranch elseBranch => by
    rw [spliced, IsFlat]
    exact ⟨isFlat_spliced thenBranch, isFlat_spliced elseBranch⟩

theorem areFlat_splicedAll : ∀ body : List Stmt, AreFlat (splicedAll body)
  | [] => by
    rw [splicedAll, AreFlat]
    trivial
  | s :: rest => by
    rw [splicedAll]
    exact areFlat_append (areFlat_unbraced (isFlat_spliced s)) (areFlat_splicedAll rest)

end

/-! ## It is executed alike -/

/-- What a statement is in a list is executed as the statement. -/
theorem execAll_unbraced (s : Stmt) : execAll s.unbraced = s.exec := by
  have alone : execAll [s] = s.exec := by
    rw [execAll]
    conv_rhs => rw [← bind_pure s.exec]
    refine bind_congr fun outcome => ?_
    cases outcome with
    | completed => rw [execAll]
    | halted => rfl
  cases s with
  | block brace body => rw [unbraced, exec]
  | _ => exact alone

mutual

/-- A spliced statement is executed as it was. -/
theorem exec_spliced : ∀ s : Stmt, s.spliced.exec = s.exec
  | .block brace body => by rw [spliced, exec, exec, execAll_splicedAll body]
  | .expression e => by rw [spliced]
  | .halt keyword => by rw [spliced]
  | .ifThen keyword condition thenBranch => by
    rw [spliced, exec, exec, exec_spliced thenBranch]
  | .ifElse keyword condition thenBranch elseBranch => by
    rw [spliced, exec, exec, exec_spliced thenBranch, exec_spliced elseBranch]

/-- Statements are executed as those that are spliced, one portion after the other. -/
theorem execAll_splicedAll : ∀ body : List Stmt, execAll (splicedAll body) = execAll body
  | [] => by rw [splicedAll]
  | s :: rest => by
    rw [splicedAll, execAll_append, execAll_unbraced, exec_spliced s, execAll]
    -- a `halt` in the portion leaves out the same statements in both lists
    refine bind_congr fun outcome => ?_
    cases outcome with
    | completed => exact execAll_splicedAll rest
    | halted => rfl

end

end Stmt

/-- Braces in lists of statements have no meaning of their own.  With every block among other
    statements spliced, a program has the same expressions in the same order and no block in a list
    of statements; and it is the same effect.  So from every session, whatever its reader and its
    writer do, it comes to the same end, with the same variables, output and input left. -/
theorem Program.run_spliced (p : Program) :
    p.spliced.run = p.run ∧ p.spliced.IsFlat ∧ p.spliced.nodes = p.nodes := by
  refine ⟨?_, Stmt.areFlat_splicedAll p.body, Stmt.nodesAll_splicedAll p.body⟩
  show (Stmt.execAll (Stmt.splicedAll p.body)).thenAlways Effect.flush = _
  rw [Stmt.execAll_splicedAll]
  rfl

/-- In `{ { halt } x } if x { { x } }` only the branch stays a block. -/
example (x : Expr) (brace keyword : Token) :
    Program.spliced ⟨[.block brace [.block brace [.halt keyword], .expression x],
      .ifThen keyword x (.block brace [.block brace [.expression x]])]⟩ =
    ⟨[.halt keyword, .expression x,
      .ifThen keyword x (.block brace [.expression x])]⟩ := rfl

end NumScript
