import Parens.Store

/-!
What has been done to a store: scopes were made, each of its own or inside one that was there, and
keys were defined in them, in any order. The history alone tells what was defined last under a name
in each scope, and in which scopes a name is looked for, one after the other.
-/

namespace Parens

/-- The name that a key stands for: the symbol that it is, or that it spells in any case. -/
def Key.name? : Key → Option Name
  | spelled text => Name.ofText? text
  | term t => t.name?

namespace Store

/-- What has been done, the latest last, when there are `n` scopes by then. -/
inductive History : Nat → Type
  | start : History 0
  | addScope {n : Nat} (before : History n) (outer : Option (Fin n)) : History (n + 1)
  | define {n : Nat} (before : History n) (scope : Fin n) (key : Key) (value : Term) : History n

namespace History

/-- The store that comes of it. -/
def store : {n : Nat} → History n → Store
  | _, start => .empty
  | _, addScope before outer => before.store.addScope (outer.map Fin.val)
  | _, define before scope key value => (before.store.defineKey scope key value).2

/-- A scope, and then those around it, the innermost first. -/
def chain : {n : Nat} → History n → Nat → List Nat
  | _, start, _ => []
  | _, addScope (n := n) before outer, i =>
    if i = n then i :: (outer.map fun o => before.chain o).getD [] else before.chain i
  | _, define before _ _ _, i => before.chain i

/-- The value that was defined last under a name in a scope itself. -/
def latest? (name : Name) : {n : Nat} → History n → Nat → Option Term
  | _, start, _ => none
  | _, addScope before _, i => before.latest? name i
  | _, define before scope key value, i =>
    if scope = i ∧ key.name? = some name then some value else before.latest? name i

/-- The names that were defined in a scope, each as often as it was. -/
def defined : {n : Nat} → History n → Nat → List Name
  | _, start, _ => []
  | _, addScope before _, i => before.defined i
  | _, define before scope key _, i =>
    if scope = i then before.defined i ++ key.name?.toList else before.defined i

/-- Whether a name that is looked up from one scope is looked for in another: none of the scopes in
front of it has the name. -/
def Exposes {n : Nat} (h : History n) (name : Name) (i j : Nat) : Prop :=
  ∃ front behind, h.chain i = front ++ j :: behind ∧ ∀ k ∈ front, h.latest? name k = none

end History
end Store
end Parens
