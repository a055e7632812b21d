import Mathlib.Data.List.TakeWhile
import Metamodel.Problems
import Metamodel.Proofs.Text.ByteOrder

/-!
# Problems as a sorted list

A collection of problems is a tree, and what counts is the list of its routes and messages. In a
collection that was built from additions the routes of this list ascend, and an addition puts its
message behind those that are there under its route. A merge does so with each message of the other
collection in turn, however deep the two overlap.

* `place`, `placeAll`: additions to a list.
* `Canonical`: in every node the keys ascend, and there are no empty collections under them.
* `Adds`: what a change adds to canonical collections. A change of one child adds the same under
  its key (`Adds.alter`), and so `append`, which goes down both trees, adds the pairs of the second
  one (`adds_append`).
* `linesUnder_eq`, `size_eq`, `isEmpty_iff`: the other views of a collection in terms of the list.
* `multimap_of_built`: collections that are built from additions are sorted multimaps.
-/

namespace Metamodel

namespace Problems

open scoped List

/-! ## Additions to a list -/

/-- The pairs with one more, behind those in front whose route is not greater. -/
def place (pairs : List (List String × String)) (pair : List String × String) :
    List (List String × String) :=
  pairs.takeWhile (·.1 ≤ pair.1) ++ pair :: pairs.dropWhile (·.1 ≤ pair.1)

/-- The pairs with others, which are placed one after the other. -/
def placeAll (pairs others : List (List String × String)) : List (List String × String) :=
  others.foldl place pairs

/-- The pair with one more key in front of its route. -/
def under (key : String) (pair : List String × String) : List String × String :=
  (key :: pair.1, pair.2)

/-- The routes ascend. Keys have the order of their bytes (`textBytes_lt_iff`), and a route comes
before those that continue it. -/
def Ascending (pairs : List (List String × String)) : Prop :=
  pairs.Pairwise (·.1 ≤ ·.1)

variable {pairs others front back : List (List String × String)} {pair : List String × String}

theorem place_perm (pairs : List (List String × String)) (pair : List String × String) :
    place pairs pair ~ pair :: pairs := by
  refine List.perm_middle.trans ?_
  rw [List.takeWhile_append_dropWhile]

theorem placeAll_perm (pairs others : List (List String × String)) :
    placeAll pairs others ~ pairs ++ others := by
  induction others generalizing pairs with
  | nil => rw [List.append_nil]; exact .refl _
  | cons pair others ih =>
    calc placeAll (place pairs pair) others
      _ ~ place pairs pair ++ others := ih _
      _ ~ pair :: pairs ++ others := (place_perm pairs pair).append_right others
      _ ~ pairs ++ pair :: others := List.perm_middle.symm

/-- Where a pair is placed: the messages that are there under its route come before it. -/
theorem Ascending.exists_place (h : Ascending pairs) (pair : List String × String) :
    ∃ before after, pairs = before ++ after ∧ place pairs pair = before ++ pair :: after ∧
      (∀ x ∈ before, x.1 ≤ pair.1) ∧ ∀ x ∈ after, pair.1 < x.1 := by
  refine ⟨_, _, List.takeWhile_append_dropWhile.symm, rfl, fun x hx => ?_, fun x hx => ?_⟩
  · simpa using List.mem_takeWhile_imp hx
  · -- The first pair that is left over is greater, and the others come after it.
    have hrest := List.Pairwise.sublist (List.dropWhile_sublist (·.1 ≤ pair.1)) h
    have hfirst := List.head?_dropWhile_not (·.1 ≤ pair.1) pairs
    cases hd : pairs.dropWhile (·.1 ≤ pair.1) with
    | nil => simp [hd] at hx
    | cons y rest =>
      rw [hd] at hx hrest hfirst
      have hy : pair.1 < y.1 := by simpa using hfirst
      rcases List.mem_cons.mp hx with rfl | hx
      · exact hy
      · exact hy.trans_le (List.rel_of_pairwise_cons hrest hx)

/-- The routes still ascend, so that the next pair finds its place as well. -/
theorem Ascending.place (h : Ascending pairs) (pair : List String × String) :
    Ascending (place pairs pair) := by
  obtain ⟨before, after, rfl, hplace, hbefore, hafter⟩ := h.exists_place pair
  obtain ⟨hfront, hback, hcross⟩ := List.pairwise_append.mp h
  rw [hplace]
  refine List.pairwise_append.mpr
    ⟨hfront, List.pairwise_cons.mpr ⟨fun x hx => (hafter x hx).le, hback⟩, fun x hx => ?_⟩
  exact List.forall_mem_cons.mpr ⟨hbefore x hx, hcross x hx⟩

theorem place_append_of_le (h : ∀ x ∈ front, x.1 ≤ pair.1) :
    place (front ++ back) pair = front ++ place back pair := by
  have hall : ∀ x ∈ front, decide (x.1 ≤ pair.1) = true := fun x hx => decide_eq_true (h x hx)
  rw [place, place, List.takeWhile_append_of_pos hall, List.dropWhile_append_of_pos hall,
    List.append_assoc]

theorem place_append_of_lt (h : ∀ x ∈ back, pair.1 < x.1) :
    place (front ++ back) pair = place front pair ++ back := by
  induction front with
  | nil =>
    cases back with
    | nil => rfl
    | cons x back =>
      have hx : ¬x.1 ≤ pair.1 := not_le.mpr (h x List.mem_cons_self)
      simp [place, hx]
  | cons x front ih =>
    by_cases hx : x.1 ≤ pair.1
    · have hcons (pairs : List (List String × String)) :
          place ([x] ++ pairs) pair = [x] ++ place pairs pair :=
        place_append_of_le (List.forall_mem_singleton.mpr hx)
      calc place ([x] ++ (front ++ back)) pair
        _ = [x] ++ (place front pair ++ back) := by rw [hcons, ih]
        _ = place ([x] ++ front) pair ++ back := by rw [hcons, List.append_assoc]
    · simp [place, hx]

theorem placeAll_append_of_le (h : ∀ x ∈ others, ∀ y ∈ front, y.1 ≤ x.1) :
    placeAll (front ++ back) others = front ++ placeAll back others := by
  induction others generalizing back with
  | nil => rfl
  | cons x others ih =>
    rw [List.forall_mem_cons] at h
    calc placeAll (place (front ++ back) x) others
      _ = placeAll (front ++ place back x) others := by rw [place_append_of_le h.1]
      _ = front ++ placeAll (place back x) others := ih h.2

theorem placeAll_append_of_lt (h : ∀ x ∈ others, ∀ y ∈ back, x.1 < y.1) :
    placeAll (front ++ back) others = placeAll front others ++ back := by
  induction others generalizing front with
  | nil => rfl
  | cons x others ih =>
    rw [List.forall_mem_cons] at h
    calc placeAll (place (front ++ back) x) others
      _ = placeAll (place front x ++ back) others := by rw [place_append_of_lt h.1]
      _ = placeAll (place front x) others ++ back := ih h.2

/-- What ascends and does not come before anything that is there is placed at the end. -/
theorem placeAll_eq_append (h : ∀ x ∈ others, ∀ y ∈ pairs, y.1 ≤ x.1) (hothers : Ascending others) :
    placeAll pairs others = pairs ++ others := by
  induction others generalizing pairs with
  | nil => exact (List.append_nil pairs).symm
  | cons x others ih =>
    rw [List.forall_mem_cons] at h
    obtain ⟨hx, hothers⟩ := List.pairwise_cons.mp hothers
    have hplace : place (pairs ++ []) x = pairs ++ [x] := place_append_of_le h.1
    rw [List.append_nil] at hplace
    have hlast : ∀ y ∈ others, ∀ z ∈ pairs ++ [x], z.1 ≤ y.1 := by
      intro y hy z hz
      rcases List.mem_append.mp hz with hz | hz
      · exact h.2 y hy z hz
      · exact List.mem_singleton.mp hz ▸ hx y hy
    calc placeAll (place pairs x) others
      _ = placeAll (pairs ++ [x]) others := by rw [hplace]
      _ = pairs ++ [x] ++ others := ih hlast hothers
      _ = pairs ++ x :: others := List.append_assoc _ _ _

theorem placeAll_append (pairs front back : List (List String × String)) :
    placeAll pairs (front ++ back) = placeAll (placeAll pairs front) back :=
  List.foldl_append

theorem place_map_under (key : String) (pairs : List (List String × String))
    (pair : List String × String) :
    place (pairs.map (under key)) (under key pair) = (place pairs pair).map (under key) := by
  have hle (route other : List String) : key :: route ≤ key :: other ↔ route ≤ other := by
    simp [← not_lt]
  simp [place, under, List.takeWhile_map, List.dropWhile_map, Function.comp_def, hle]

theorem placeAll_map_under (key : String) (pairs others : List (List String × String)) :
    placeAll (pairs.map (under key)) (others.map (under key)) =
      (placeAll pairs others).map (under key) := by
  induction others generalizing pairs with
  | nil => rfl
  | cons pair others ih =>
    calc placeAll (place (pairs.map (under key)) (under key pair)) (others.map (under key))
      _ = placeAll ((place pairs pair).map (under key)) (others.map (under key)) := by
        rw [place_map_under]
      _ = (placeAll (place pairs pair) others).map (under key) := ih _

/-! ## Views -/

theorem toPairs_node (messages : List String) (children : List (String × Problems)) :
    (node messages children).toPairs = messages.map ([], ·) ++ pairsOfChildren children := rfl

theorem pairsOfChildren_cons (key : String) (child : Problems) (rest : List (String × Problems)) :
    pairsOfChildren ((key, child) :: rest) =
      child.toPairs.map (under key) ++ pairsOfChildren rest := rfl

mutual

theorem size_eq : ∀ p : Problems, p.size = p.toPairs.length
  | node messages children => by
    rw [size, toPairs_node, List.length_append, List.length_map, sizeOfChildren_eq children]

theorem sizeOfChildren_eq : ∀ children, sizeOfChildren children = (pairsOfChildren children).length
  | [] => rfl
  | (key, child) :: rest => by
    rw [sizeOfChildren, pairsOfChildren_cons, List.length_append, List.length_map, size_eq child,
      sizeOfChildren_eq rest]

end

mutual

theorem isEmpty_iff : ∀ p : Problems, p.isEmpty = true ↔ p.toPairs = []
  | node messages children => by
    rw [isEmpty, toPairs_node, Bool.and_eq_true, areEmpty_iff children, List.isEmpty_iff,
      List.append_eq_nil_iff, List.map_eq_nil_iff]

theorem areEmpty_iff : ∀ children, areEmpty children = true ↔ pairsOfChildren children = []
  | [] => by simp [areEmpty, pairsOfChildren]
  | (key, child) :: rest => by
    rw [areEmpty, pairsOfChildren_cons, Bool.and_eq_true, isEmpty_iff child, areEmpty_iff rest,
      List.append_eq_nil_iff, List.map_eq_nil_iff]

end

/-- The keys of a route with dots between them; there is nothing to write for the root. -/
def dotted : List String → Option String
  | [] => none
  | route => some (".".intercalate route)

/-- A route of one key is written as it is. -/
theorem dotted_toList (key : Option String) : dotted key.toList = key := by
  cases key with
  | none => rfl
  | some key => exact congrArg some (String.intercalate_singleton)

theorem extendRoute_dotted (route : List String) (key : String) :
    some (extendRoute (dotted route) key) = dotted (route ++ [key]) := by
  cases route with
  | nil => simp [dotted, extendRoute]
  | cons first rest =>
    have happend : ".".intercalate (first :: (rest ++ [key])) =
        ".".intercalate (first :: rest) ++ "." ++ key := by
      rw [← List.cons_append, String.intercalate_append_of_ne_nil (by simp) (by simp),
        String.intercalate_singleton]
    simp [dotted, extendRoute, happend]

mutual

/-- Every message has one line, behind the whole route to it. -/
theorem linesUnder_eq (route : List String) : ∀ p : Problems,
    p.linesUnder (dotted route) = p.toPairs.map fun pair => line (dotted (route ++ pair.1)) pair.2
  | node messages children => by
    simp [linesUnder, toPairs_node, linesOfChildren_eq route children, Function.comp_def]

theorem linesOfChildren_eq (route : List String) : ∀ children : List (String × Problems),
    linesOfChildren (dotted route) children =
      (pairsOfChildren children).map fun pair => line (dotted (route ++ pair.1)) pair.2
  | [] => rfl
  | (key, child) :: rest => by
    simp [linesOfChildren, pairsOfChildren_cons, extendRoute_dotted, linesUnder_eq _ child,
      linesOfChildren_eq route rest, Function.comp_def, under]

end

/-! ## Canonical collections -/

mutual

/-- In every node the keys ascend byte by byte, and no collection under a key is empty. -/
inductive Canonical : Problems → Prop where
  | node {messages : List String} {children : List (String × Problems)} :
      CanonicalChildren children → Canonical (.node messages children)

/-- The keys of these children ascend byte by byte, none of them is empty, and all are canonical. -/
inductive CanonicalChildren : List (String × Problems) → Prop where
  | nil : CanonicalChildren []
  | cons {key : String} {child : Problems} {rest : List (String × Problems)} :
      (∀ other ∈ rest, textBytes key < textBytes other.1) → child.isEmpty = false →
      Canonical child → CanonicalChildren rest → CanonicalChildren ((key, child) :: rest)

end

theorem canonical_empty : Canonical empty :=
  .node .nil

variable {p : Problems} {key : String} {rest : List (String × Problems)}

theorem Canonical.children (h : Canonical p) : CanonicalChildren p.children := by
  cases h with
  | node h => exact h

theorem mem_pairsOfChildren {children : List (String × Problems)} :
    pair ∈ pairsOfChildren children ↔
      ∃ child ∈ children, ∃ below ∈ child.2.toPairs, under child.1 below = pair := by
  induction children with
  | nil => simp [pairsOfChildren]
  | cons child rest ih =>
    rw [pairsOfChildren_cons, List.mem_append, List.mem_map, List.exists_mem_cons_iff, ih]

/-- The keys decide the order, whatever the routes are that continue them. -/
theorem lt_of_mem_pairsOfChildren (h : ∀ child ∈ rest, textBytes key < textBytes child.1)
    (hpair : pair ∈ pairsOfChildren rest) (route : List String) : key :: route < pair.1 := by
  obtain ⟨child, hchild, below, -, rfl⟩ := mem_pairsOfChildren.mp hpair
  exact List.cons_lt_cons_iff.mpr (.inl (textBytes_lt_iff.mp (h child hchild)))

theorem ascending_map_under (h : Ascending pairs) : Ascending (pairs.map (under key)) :=
  h.map _ fun x y hxy => by simpa [under, ← not_lt] using hxy

/-- The root comes first. -/
theorem le_of_mem_messages {messages : List String} (h : pair ∈ messages.map ([], ·))
    (route : List String) : pair.1 ≤ route := by
  obtain ⟨_, _, rfl⟩ := List.mem_map.mp h
  exact not_lt.mp (List.not_lt_nil route)

theorem ascending_messages (messages : List String) :
    Ascending (messages.map (([] : List String), ·)) :=
  List.pairwise_map.mpr (List.pairwise_of_forall fun _ _ => le_rfl)

mutual

theorem Canonical.ascending : ∀ {p : Problems}, p.Canonical → Ascending p.toPairs
  | node messages children, .node h => by
    refine List.pairwise_append.mpr ⟨?_, h.ascending, ?_⟩
    · exact ascending_messages messages
    · exact fun x hx y _ => le_of_mem_messages hx y.1

theorem CanonicalChildren.ascending : ∀ {children : List (String × Problems)},
    CanonicalChildren children → Ascending (pairsOfChildren children)
  | [], .nil => .nil
  | (key, child) :: rest, .cons hkey _ hchild hrest => by
    refine List.pairwise_append.mpr
      ⟨ascending_map_under hchild.ascending, hrest.ascending, fun x hx y hy => ?_⟩
    obtain ⟨below, -, rfl⟩ := List.mem_map.mp hx
    exact (lt_of_mem_pairsOfChildren hkey hy below.1).le

end

/-! ## What a change adds -/

/-- The change keeps collections canonical, and places the pairs in them. -/
structure Adds (change : Problems → Problems) (others : List (List String × String)) : Prop where
  canonical : ∀ {p : Problems}, p.Canonical → (change p).Canonical
  toPairs : ∀ {p : Problems}, p.Canonical → (change p).toPairs = placeAll p.toPairs others

variable {change second : Problems → Problems} {children : List (String × Problems)}

theorem adds_id : Adds id [] :=
  ⟨id, fun _ => rfl⟩

theorem Adds.comp (hsecond : Adds second back) (hfirst : Adds change front) :
    Adds (second ∘ change) (front ++ back) where
  canonical hp := hsecond.canonical (hfirst.canonical hp)
  toPairs hp := by
    rw [Function.comp_apply, hsecond.toPairs (hfirst.canonical hp), hfirst.toPairs hp,
      placeAll_append]

/-- Where something is added, something is. -/
theorem Adds.isEmpty_eq_false (hchange : Adds change others) (hne : others ≠ [])
    (hp : p.Canonical) : (change p).isEmpty = false := by
  refine Bool.eq_false_iff.mpr fun hempty => hne ?_
  have hperm := placeAll_perm p.toPairs others
  rw [← hchange.toPairs hp, (isEmpty_iff _).mp hempty] at hperm
  exact (List.append_eq_nil_iff.mp hperm.symm.eq_nil).2

/-- A key that comes before the first one comes before all. -/
theorem forall_key_lt {k : String} {child : Problems} (hlt : key < k)
    (hkey : ∀ other ∈ rest, textBytes k < textBytes other.1) :
    ∀ other ∈ (k, child) :: rest, textBytes key < textBytes other.1 := by
  refine List.forall_mem_cons.mpr ⟨textBytes_lt_iff.mpr hlt, fun other hother => ?_⟩
  exact textBytes_lt_iff.mpr (hlt.trans (textBytes_lt_iff.mp (hkey other hother)))

theorem mem_alterChild {child : String × Problems} (h : child ∈ alterChild key change children) :
    child.1 = key ∨ ∃ other ∈ children, other.1 = child.1 := by
  induction children with
  | nil =>
    rw [alterChild, List.mem_singleton] at h
    exact .inl (congrArg Prod.fst h)
  | cons other rest ih =>
    grind [alterChild]

/-- A change of the collection under a key adds under this key what it adds to the collection. -/
theorem pairsOfChildren_alterChild (hchange : Adds change others) (h : CanonicalChildren children) :
    pairsOfChildren (alterChild key change children) =
      placeAll (pairsOfChildren children) (others.map (under key)) := by
  have hplaced {q : Problems} (hq : q.Canonical) :
      (change q).toPairs.map (under key) =
        placeAll (q.toPairs.map (under key)) (others.map (under key)) := by
    rw [hchange.toPairs hq, placeAll_map_under]
  have hlt {rest : List (String × Problems)}
      (hkey : ∀ child ∈ rest, textBytes key < textBytes child.1) :
      ∀ x ∈ others.map (under key), ∀ y ∈ pairsOfChildren rest, x.1 < y.1 := by
    intro x hx y hy
    obtain ⟨other, -, rfl⟩ := List.mem_map.mp hx
    exact lt_of_mem_pairsOfChildren hkey hy other.1
  induction children with
  | nil => rw [alterChild, pairsOfChildren_cons, hplaced canonical_empty]; exact List.append_nil _
  | cons child rest ih =>
    obtain ⟨k, child⟩ := child
    cases h with
    | cons hkey hinhabited hchild hrest =>
    unfold alterChild
    split_ifs with heq hbefore
    · -- The key is there, and what is added comes before the keys behind it.
      subst heq
      rw [pairsOfChildren_cons, pairsOfChildren_cons, hplaced hchild,
        placeAll_append_of_lt (hlt hkey)]
    · -- All keys that are there come later.
      rw [pairsOfChildren_cons, hplaced canonical_empty]
      exact (placeAll_append_of_lt (hlt (forall_key_lt hbefore hkey))).symm
    · have hk : k < key := lt_of_le_of_ne (not_lt.mp hbefore) heq
      have hle : ∀ x ∈ others.map (under key), ∀ y ∈ child.toPairs.map (under k), y.1 ≤ x.1 := by
        intro x hx y hy
        obtain ⟨other, -, rfl⟩ := List.mem_map.mp hx
        obtain ⟨below, -, rfl⟩ := List.mem_map.mp hy
        exact (List.cons_lt_cons_iff.mpr (.inl hk)).le
      rw [pairsOfChildren_cons, pairsOfChildren_cons, ih hrest, placeAll_append_of_le hle]

theorem canonicalChildren_alterChild (hchange : Adds change others) (hne : others ≠ [])
    (h : CanonicalChildren children) : CanonicalChildren (alterChild key change children) := by
  induction children with
  | nil =>
    exact .cons (by simp) (hchange.isEmpty_eq_false hne canonical_empty)
      (hchange.canonical canonical_empty) .nil
  | cons child rest ih =>
    obtain ⟨k, child⟩ := child
    cases h with
    | cons hkey hinhabited hchild hrest =>
    unfold alterChild
    split_ifs with heq hbefore
    · exact .cons hkey (hchange.isEmpty_eq_false hne hchild) (hchange.canonical hchild) hrest
    · exact .cons (forall_key_lt hbefore hkey) (hchange.isEmpty_eq_false hne canonical_empty)
        (hchange.canonical canonical_empty) (.cons hkey hinhabited hchild hrest)
    · have hk : k < key := lt_of_le_of_ne (not_lt.mp hbefore) heq
      refine .cons (fun other hother => ?_) hinhabited hchild (ih hrest)
      rcases mem_alterChild hother with heq | ⟨sibling, hsibling, heq⟩
      · exact heq ▸ textBytes_lt_iff.mpr hk
      · exact heq ▸ hkey sibling hsibling

/-- A change that is made under a key. -/
theorem Adds.alter (hchange : Adds change others) (hne : others ≠ []) (key : String) :
    Adds (·.alter key change) (others.map (under key)) where
  canonical hp := .node (canonicalChildren_alterChild hchange hne hp.children)
  toPairs {p} hp := by
    obtain ⟨messages, children⟩ := p
    rw [toPairs_node, placeAll_append_of_le fun x _ y hy => le_of_mem_messages hy x.1]
    exact congrArg _ (pairsOfChildren_alterChild hchange hp.children)

/-- Messages at the root come behind those that are there, and before all children. -/
theorem adds_messages (more : List String) :
    Adds (fun p => node (p.messages ++ more) p.children) (more.map ([], ·)) where
  canonical hp := .node hp.children
  toPairs {p} hp := by
    obtain ⟨messages, children⟩ := p
    have hlt : ∀ x ∈ more.map (([] : List String), ·), ∀ y ∈ pairsOfChildren children,
        x.1 < y.1 := by
      intro x hx y hy
      obtain ⟨_, _, rfl⟩ := List.mem_map.mp hx
      obtain ⟨child, _, below, _, rfl⟩ := mem_pairsOfChildren.mp hy
      exact List.nil_lt_cons _ _
    rw [toPairs_node, toPairs_node, placeAll_append_of_lt hlt,
      placeAll_eq_append (fun x _ y hy => le_of_mem_messages hy x.1) (ascending_messages more),
      ← List.map_append]
    rfl

theorem adds_add (message : String) : Adds (·.add message) [([], message)] :=
  adds_messages [message]

theorem adds_addFor (key message : String) : Adds (·.addFor key message) [([key], message)] :=
  (adds_add message).alter (List.cons_ne_nil _ _) key

/-- Reports under keys are placed one after the other. -/
theorem adds_foldl_addFor (reports : List (String × String)) :
    Adds (fun p => reports.foldl (fun p (key, message) => p.addFor key message) p)
      (reports.map fun (key, message) => ([key], message)) := by
  induction reports with
  | nil => exact adds_id
  | cons report rest ih => exact ih.comp (adds_addFor report.1 report.2)

/-- Nothing is added for a collection without messages, so that no empty one gets a key. -/
theorem Adds.mergeFor {other : Problems} (h : Adds (·.append other) other.toPairs) (key : String) :
    Adds (·.mergeFor key other) (other.toPairs.map (under key)) := by
  cases hempty : other.isEmpty with
  | true =>
    rw [(isEmpty_iff other).mp hempty]
    simpa [Problems.mergeFor, hempty, Function.id_def] using adds_id
  | false =>
    have hne : other.toPairs ≠ [] := fun hnil => by simp [(isEmpty_iff other).mpr hnil] at hempty
    simpa [Problems.mergeFor, hempty] using h.alter hne key

mutual

theorem adds_append : ∀ other : Problems, Adds (·.append other) other.toPairs
  | node messages children => (adds_appendChildren children).comp (adds_messages messages)

theorem adds_appendChildren : ∀ children : List (String × Problems),
    Adds (·.appendChildren children) (pairsOfChildren children)
  | [] => adds_id
  | (key, child) :: rest => (adds_appendChildren rest).comp ((adds_append child).mergeFor key)

end

theorem adds_mergeFor (key : String) (other : Problems) :
    Adds (·.mergeFor key other) (other.toPairs.map (under key)) :=
  (adds_append other).mergeFor key

/-! ## Sorted multimaps -/

/-- The collections that come about by additions and merges. -/
inductive Built : Problems → Prop where
  | empty : Built .empty
  | add {p : Problems} (hp : Built p) (message : String) : Built (p.add message)
  | addFor {p : Problems} (hp : Built p) (key message : String) : Built (p.addFor key message)
  | mergeFor {p other : Problems} (hp : Built p) (key : String) (hother : Built other) :
      Built (p.mergeFor key other)

/-- No addition leaves the canonical collections, so that all that are built are canonical. -/
theorem Built.canonical (hp : p.Built) : p.Canonical := by
  induction hp with
  | empty => exact canonical_empty
  | add _ message ih => exact (adds_add message).canonical ih
  | addFor _ key message ih => exact (adds_addFor key message).canonical ih
  | mergeFor _ key _ ih _ => exact (adds_mergeFor key _).canonical ih

theorem toExcept_eq_ok : p.toExcept = .ok () ↔ p.isEmpty = true := by
  unfold toExcept
  split <;> simp [*]

theorem lines_eq (p : Problems) :
    p.lines = p.toPairs.map fun (route, message) =>
      if route = [] then message else ".".intercalate route ++ ": " ++ message := by
  refine (linesUnder_eq [] p).trans (List.map_congr_left fun (route, message) _ => ?_)
  cases route with
  | nil => rfl
  | cons key rest => simp [dotted, line]

/-- A collection that is built from additions is a sorted multimap from routes to messages. An
addition puts its message behind those that are there under its route, a merge does so for each
message of the other collection in its order, and nothing else changes. The lines, the number of
messages and the outcome are those of the pairs, and no collection below the root is empty. -/
theorem multimap_of_built (hp : p.Built) :
    p.Canonical ∧ Ascending p.toPairs ∧
      (∀ message, (p.add message).toPairs = place p.toPairs ([], message)) ∧
      (∀ key message, (p.addFor key message).toPairs = place p.toPairs ([key], message)) ∧
      (∀ key other, (p.mergeFor key other).toPairs =
        placeAll p.toPairs (other.toPairs.map (under key))) ∧
      (∀ pairs pair, Ascending pairs → Ascending (place pairs pair) ∧
        ∃ before after, pairs = before ++ after ∧ place pairs pair = before ++ pair :: after ∧
          (∀ x ∈ before, x.1 ≤ pair.1) ∧ ∀ x ∈ after, pair.1 < x.1) ∧
      p.lines = p.toPairs.map (fun (route, message) =>
        if route = [] then message else ".".intercalate route ++ ": " ++ message) ∧
      p.size = p.toPairs.length ∧
      (p.isEmpty = true ↔ p.size = 0) ∧ (p.isEmpty = true ↔ p.toExcept = .ok ()) := by
  have hcanonical := hp.canonical
  refine ⟨hcanonical, hcanonical.ascending, fun message => (adds_add message).toPairs hcanonical,
    fun key message => (adds_addFor key message).toPairs hcanonical,
    fun key other => (adds_mergeFor key other).toPairs hcanonical,
    fun pairs pair h => ⟨h.place pair, h.exists_place pair⟩, lines_eq p, size_eq p, ?_,
    toExcept_eq_ok.symm⟩
  rw [isEmpty_iff, size_eq, List.length_eq_zero_iff]

/-- Problems of a setting that is a table, and of an entry of it. -/
def nestedProblems : Problems :=
  ((empty.addFor "inner" "third").add "second").mergeFor "void" empty

/-- Two collections that overlap two keys deep. -/
def overlappingProblems : Problems :=
  (((empty.addFor "strip" "last").mergeFor "outer" (empty.addFor "inner" "first")).add
    "top").mergeFor "outer" nestedProblems

theorem multimap_of_built_overlapping :
    overlappingProblems.Built ∧
      overlappingProblems.lines =
        ["top", "outer: second", "outer.inner: first", "outer.inner: third", "strip: last"] := by
  have hnested : nestedProblems.Built := ((Built.empty.addFor _ _).add _).mergeFor _ .empty
  have hbuilt : overlappingProblems.Built :=
    ((Built.empty.addFor _ _).mergeFor _ (Built.empty.addFor _ _)).add _ |>.mergeFor _ hnested
  obtain ⟨-, -, -, -, -, -, hlines, -⟩ := multimap_of_built hbuilt
  exact ⟨hbuilt, hlines.trans (by decide +kernel)⟩

end Problems

end Metamodel
