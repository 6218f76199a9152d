import PathGuard.Scope.Declaration
/-!
# Binding

Building the scopes of a tree. The walk keeps its work on a stack of steps, so the depth of a tree
does not limit it; a scope is closed by a step that lies below those of its parts.
-/

namespace PathGuard

namespace Scopes

/-- Makes a declaration. A name without a text declares nothing. -/
def declare (s : Scopes) (t : Tree) (d : Declaration) : Scopes :=
  match t.identifierText? (some d.name), if d.hoisted then s.hoistTarget else s.current with
  | some name, some scope => s.declareIn scope d.form name d.name
  | _, _ => s

def declareAll (s : Scopes) (t : Tree) (ds : List Declaration) : Scopes :=
  ds.foldl (fun s d => s.declare t d) s

def enterNode (s : Scopes) (t : Tree) (kind : ScopeKind) (id : NodeId) : Scopes :=
  let s := (s.enter kind id).declareAll t (t.innerDeclarations id)
  match t.sharedBody? id with
  | some body => s.shareCurrent body
  | none => s

/-- Takes one step. The answer holds the steps that it leads to. -/
def step (s : Scopes) (t : Tree) : BindStep → List BindStep × Scopes
  | .visit none => ([], s)
  | .visit (some id) => (t.steps id, s.declareAll t (t.declarations id))
  | .enter kind id => ([], s.enterNode t kind id)
  | .leave => ([], s.leave)

def runWithin (t : Tree) : (fuel : Nat) → List BindStep → Scopes → Scopes
  | 0, _, s => s
  | _ + 1, [], s => s
  | fuel + 1, next :: rest, s =>
    let (more, s) := s.step t next
    runWithin t fuel (more ++ rest) s

end Scopes

def BindStep.ofFile (root : NodeId) (statements : NodeList) : List BindStep :=
  .enter .sourceFile root :: (statements.nodes.map .visit ++ [.leave])

def Scopes.ofTree (t : Tree) (root : Child) : Scopes :=
  match root, t.recordAt? root with
  | some id, some (.sourceFile statements _ _) =>
    let first := BindStep.ofFile id statements
    Scopes.runWithin t (t.walkBound first.length fun i => (t.steps i).length) first .empty
  | _, _ => .empty

end PathGuard
