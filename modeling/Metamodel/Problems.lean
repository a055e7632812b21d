/-!
# Problems by route

A collection of messages, each under a route: a list of keys from the outside in. Messages of one
route keep their order, and routes are ordered by their keys. The collection is a tree whose nodes
hold the messages of their route, and children by key in ascending order.

`toPairs` views a collection as the list of its routes and messages in that order.
-/

namespace Metamodel

/-- Messages by route. -/
inductive Problems where
  /-- The messages at the root, and the collections under each key. -/
  | node (messages : List String) (children : List (String × Problems))
deriving Inhabited, Repr

namespace Problems

/-- No problems. -/
def empty : Problems :=
  node [] []

instance : EmptyCollection Problems := ⟨empty⟩

/-- The messages at the root. -/
def messages : Problems → List String
  | node messages _ => messages

/-- The collections under the keys, in ascending order of the keys. -/
def children : Problems → List (String × Problems)
  | node _ children => children

/-! ## Views -/

mutual

/-- The routes and messages in order: those of a node come before those of its children. -/
def toPairs : Problems → List (List String × String)
  | node messages children => messages.map ([], ·) ++ pairsOfChildren children

/-- The routes and messages of children, with their key in front. -/
def pairsOfChildren : List (String × Problems) → List (List String × String)
  | [] => []
  | (key, child) :: rest => child.toPairs.map (fun (route, m) => (key :: route, m)) ++
      pairsOfChildren rest

end

mutual

/-- The number of messages. -/
def size : Problems → Nat
  | node messages children => messages.length + sizeOfChildren children

/-- The number of messages in children. -/
def sizeOfChildren : List (String × Problems) → Nat
  | [] => 0
  | (_, child) :: rest => child.size + sizeOfChildren rest

end

mutual

/-- There is no message. -/
def isEmpty : Problems → Bool
  | node messages children => messages.isEmpty && areEmpty children

/-- There is no message in any child. -/
def areEmpty : List (String × Problems) → Bool
  | [] => true
  | (_, child) :: rest => child.isEmpty && areEmpty rest

end

/-- A message behind the route to it. -/
def line (route : Option String) (message : String) : String :=
  match route with
  | some route => route ++ ": " ++ message
  | none => message

/-- A route that is one key longer. -/
def extendRoute (route : Option String) (key : String) : String :=
  match route with
  | some route => route ++ "." ++ key
  | none => key

mutual

/-- The messages, each behind its route. -/
def linesUnder (route : Option String) : Problems → List String
  | node messages children => messages.map (line route) ++ linesOfChildren route children

/-- The messages of children, each behind its route. -/
def linesOfChildren (route : Option String) : List (String × Problems) → List String
  | [] => []
  | (key, child) :: rest =>
    linesUnder (some (extendRoute route key)) child ++ linesOfChildren route rest

end

/-- One line for each message, which names the route by its keys and dots between them. -/
def lines (p : Problems) : List String :=
  p.linesUnder none

/-- All lines in one. -/
def text (p : Problems) : String :=
  "; ".intercalate p.lines

instance : ToString Problems where
  toString := text

/-! ## Additions -/

/-- The children in which the collection under a key has been changed; a key that is not there is
inserted in its place, with an empty collection to start from. -/
def alterChild (key : String) (change : Problems → Problems) :
    List (String × Problems) → List (String × Problems)
  | [] => [(key, change empty)]
  | (k, child) :: rest =>
    if k = key then (k, change child) :: rest
    else if key < k then (key, change empty) :: (k, child) :: rest
    else (k, child) :: alterChild key change rest

/-- A change under a key. -/
def alter (p : Problems) (key : String) (change : Problems → Problems) : Problems :=
  node p.messages (alterChild key change p.children)

/-- One more message at the root. -/
def add (p : Problems) (message : String) : Problems :=
  node (p.messages ++ [message]) p.children

/-- One more message under a key. -/
def addFor (p : Problems) (key message : String) : Problems :=
  p.alter key (·.add message)

mutual

/-- The messages of the second collection after those of the first one, route by route. -/
def append (p : Problems) : Problems → Problems
  | node messages children => appendChildren (node (p.messages ++ messages) p.children) children

/-- The messages of children, key by key, after those that are there. -/
def appendChildren (p : Problems) : List (String × Problems) → Problems
  | [] => p
  | (key, child) :: rest =>
    appendChildren (if child.isEmpty then p else p.alter key (fun q => q.append child)) rest

end

/-- The messages of another collection, under a key. Nothing is added if there are none. -/
def mergeFor (p : Problems) (key : String) (other : Problems) : Problems :=
  if other.isEmpty then p else p.alter key (·.append other)

/-- The collection as an outcome: a failure if there is a problem. -/
def toExcept (p : Problems) : Except Problems Unit :=
  if p.isEmpty then .ok () else .error p

end Problems

end Metamodel
