/-
  The expressions that a program is made of.

  The NODES of a program are all its expressions, with those that are parts of others.  Whatever is
  evaluated when a program runs is one of them (`Program.mem_nodes_of_evaluates`).
-/
import NumScript.Proofs.Evaluated

namespace NumScript

/-- The expression and the expressions that are parts of it. -/
def Expr.nodes : Expr → List Expr
  | .assign name value => .assign name value :: value.nodes
  | .binary left op right => .binary left op right :: (left.nodes ++ right.nodes)
  | .input keyword => [.input keyword]
  | .literal token value => [.literal token value]
  | .print keyword value => .print keyword value :: value.nodes
  | .unary op operand => .unary op operand :: operand.nodes
  | .var name => [.var name]

mutual

/-- The expressions in the statement. -/
def Stmt.nodes : Stmt → List Expr
  | .block _ body => nodesAll body
  | .expression e => e.nodes
  | .halt _ => []
  | .ifThen _ condition thenBranch => condition.nodes ++ thenBranch.nodes
  | .ifElse _ condition thenBranch elseBranch =>
    condition.nodes ++ (thenBranch.nodes ++ elseBranch.nodes)

/-- The expressions in some statements. -/
def Stmt.nodesAll : List Stmt → List Expr
  | [] => []
  | s :: rest => s.nodes ++ nodesAll rest

end

/-- The expressions in the program. -/
def Program.nodes (p : Program) : List Expr :=
  Stmt.nodesAll p.body

/-! ## Names -/

/-- The name in the expression itself, not in a part of it. -/
def Expr.name? : Expr → Option Token
  | .assign name _ => some name
  | .var name => some name
  | _ => none

/-- Nothing but these names is in some expressions. -/
def Expr.AllNamed (names : String → Prop) (nodes : List Expr) : Prop :=
  ∀ e ∈ nodes, ∀ token, e.name? = some token → names token.lexeme

theorem Expr.allNamed_append {names : String → Prop} {nodes nodes' : List Expr} :
    AllNamed names (nodes ++ nodes') ↔ AllNamed names nodes ∧ AllNamed names nodes' :=
  List.forall_mem_append

theorem Expr.allNamed_cons {names : String → Prop} {e : Expr} {nodes : List Expr} :
    AllNamed names (e :: nodes) ↔
      (∀ token, e.name? = some token → names token.lexeme) ∧ AllNamed names nodes :=
  List.forall_mem_cons

theorem Expr.allNamed_true (nodes : List Expr) : AllNamed (fun _ => True) nodes :=
  fun _ _ _ _ => trivial

/-! ## What is evaluated -/

/-- An expression is one of its own nodes. -/
theorem Expr.mem_nodes_self (e : Expr) : e ∈ e.nodes := by
  cases e <;> exact List.mem_cons_self

/-- Only nodes of an expression are evaluated in it. -/
theorem Expr.mem_nodes_of_evaluates {whole e : Expr} {s u : Session} (h : whole.Evaluates s e u) :
    e ∈ whole.nodes := by
  induction h with
  | self e s => exact e.mem_nodes_self
  | assign _ ih => exact List.mem_cons_of_mem _ ih
  | left _ ih => exact List.mem_cons_of_mem _ (List.mem_append_left _ ih)
  | right _ _ ih => exact List.mem_cons_of_mem _ (List.mem_append_right _ ih)
  | print _ ih => exact List.mem_cons_of_mem _ ih
  | unary _ ih => exact List.mem_cons_of_mem _ ih

mutual

/-- Only nodes of a statement are evaluated in it. -/
theorem Stmt.mem_nodes_of_evaluates : ∀ {stmt : Stmt} {s u : Session} {e : Expr},
    stmt.Evaluates s e u → e ∈ stmt.nodes
  | _, _, _, _, .block inner => by
    rw [nodes]
    exact mem_nodesAll_of_evaluatesAll inner
  | _, _, _, _, .expression inner => by
    rw [nodes]
    exact Expr.mem_nodes_of_evaluates inner
  | _, _, _, _, .ifCondition inner => by
    rw [nodes]
    exact List.mem_append_left _ (Expr.mem_nodes_of_evaluates inner)
  | _, _, _, _, .ifBranch _ inner => by
    rw [nodes]
    exact List.mem_append_right _ (mem_nodes_of_evaluates inner)
  | _, _, _, _, .elseCondition inner => by
    rw [nodes]
    exact List.mem_append_left _ (Expr.mem_nodes_of_evaluates inner)
  | _, _, _, _, .thenBranch _ inner => by
    rw [nodes]
    exact List.mem_append_right _ (List.mem_append_left _ (mem_nodes_of_evaluates inner))
  | _, _, _, _, .elseBranch _ inner => by
    rw [nodes]
    exact List.mem_append_right _ (List.mem_append_right _ (mem_nodes_of_evaluates inner))

theorem Stmt.mem_nodesAll_of_evaluatesAll : ∀ {body : List Stmt} {s u : Session} {e : Expr},
    EvaluatesAll body s e u → e ∈ nodesAll body
  | _, _, _, _, .first inner => by
    rw [nodesAll]
    exact List.mem_append_left _ (mem_nodes_of_evaluates inner)
  | _, _, _, _, .later _ inner => by
    rw [nodesAll]
    exact List.mem_append_right _ (mem_nodesAll_of_evaluatesAll inner)

end

/-- What is evaluated when the program runs is an expression of the program. -/
theorem Program.mem_nodes_of_evaluates {p : Program} {e : Expr} {s u : Session}
    (h : p.Evaluates s e u) : e ∈ p.nodes :=
  Stmt.mem_nodesAll_of_evaluatesAll h

end NumScript
