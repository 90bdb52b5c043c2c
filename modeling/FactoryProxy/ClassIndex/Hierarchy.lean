import FactoryProxy.ClassIndex.Basic

/-!
Contract: the hierarchy over an index.

Hierarchies may be cyclic and may refer to types that the index does not hold.
Every entry is visited at most once, so each question has an answer.

Owns: supertypes, the parent chain, effective constructors, instantiability and
the files that a class depends on.
-/

namespace FactoryProxy

namespace ClassDeclaration

/-- The keys of the names behind `extends` and `implements`. -/
def supertypeKeys (declared : ClassDeclaration) : List String :=
  declared.supertypeNames.map Name.lookupKey

end ClassDeclaration

namespace ClassIndex

/-- Index entries that have not been visited. -/
abbrev Unvisited := List (String × ClassDeclaration)

/-- The entries without those under a key. -/
def Unvisited.without (entries : Unvisited) (key : String) : Unvisited :=
  entries.filter (fun entry => entry.1 != key)

theorem Unvisited.length_without_lt {entries : Unvisited} {key : String}
    {declared : ClassDeclaration} (found : entries.lookup key = some declared) :
    (entries.without key).length < entries.length := by
  induction entries with
  | nil => simp at found
  | cons entry rest inductionHypothesis =>
      simp only [Unvisited.without, List.filter_cons]
      by_cases same : entry.1 = key
      · simp only [same, bne_self_eq_false, Bool.false_eq_true, if_false, List.length_cons]
        have := List.length_filter_le (fun entry => entry.1 != key) rest
        omega
      · have different : (entry.1 != key) = true := by simpa using same
        have notHead : (key == entry.1) = false := by
          simpa using fun equal => same equal.symm
        rw [List.lookup_cons, notHead] at found
        have := inductionHypothesis found
        simp only [different, if_true, List.length_cons]
        unfold Unvisited.without at this
        omega

/-- How many names the entries refer to. -/
def Unvisited.references : Unvisited → Nat
  | [] => 0
  | entry :: rest => entry.2.supertypeKeys.length + Unvisited.references rest

theorem Unvisited.references_without_le (entries : Unvisited) (key : String) :
    (entries.without key).references ≤ entries.references := by
  induction entries with
  | nil => exact Nat.le_refl _
  | cons entry rest inductionHypothesis =>
      unfold Unvisited.without at *
      cases different : entry.1 != key with
      | true =>
          simp only [List.filter_cons, different, if_true, Unvisited.references]
          omega
      | false =>
          simp only [List.filter_cons, different, Bool.false_eq_true, if_false,
            Unvisited.references]
          omega

theorem Unvisited.references_without_add_le {entries : Unvisited} {key : String}
    {declared : ClassDeclaration} (found : entries.lookup key = some declared) :
    (entries.without key).references + declared.supertypeKeys.length ≤ entries.references := by
  induction entries with
  | nil => simp at found
  | cons entry rest inductionHypothesis =>
      rw [List.lookup_cons] at found
      have bounded := Unvisited.references_without_le rest key
      by_cases same : key = entry.1
      · have isHead : (key == entry.1) = true := by simpa using same
        rw [isHead] at found
        obtain rfl := Option.some.inj found
        have dropped : (entry.1 != key) = false := by simpa using same.symm
        unfold Unvisited.without at *
        simp only [List.filter_cons, dropped, Bool.false_eq_true, if_false,
          Unvisited.references]
        omega
      · have notHead : (key == entry.1) = false := by simpa using same
        rw [notHead] at found
        have different : (entry.1 != key) = true := by simpa using fun equal => same equal.symm
        have smaller := inductionHypothesis found
        unfold Unvisited.without at *
        simp only [List.filter_cons, different, if_true, Unvisited.references]
        omega

/-- The keys reached from pending ones through unvisited entries, the pending ones
included. -/
def reached (unvisited : Unvisited) (pending : List String) : List String :=
  match pending with
  | [] => []
  | key :: rest =>
    match found : unvisited.lookup key with
    | none => key :: reached unvisited rest
    | some declared =>
      have := Unvisited.references_without_add_le found
      key :: reached (unvisited.without key) (rest ++ declared.supertypeKeys)
termination_by unvisited.references + pending.length
decreasing_by
  all_goals
    simp only [List.length_cons, List.length_append]
    omega

/-- The keys of all types above a declaration, known to the index or not. -/
def supertypes (index : ClassIndex) (declared : ClassDeclaration) : OrderedSet String :=
  OrderedSet.ofList (reached index.classes.entries declared.supertypeKeys)

/-- The declaration is a strict subtype of the named type. -/
def isSubclassOf (index : ClassIndex) (declared : ClassDeclaration) (target : String) : Bool :=
  (index.supertypes declared).contains (Name.lookupKey target)

/-- The declaration, its parent, the parent of that one and so on through
unvisited entries. -/
def parentChain (unvisited : Unvisited) (declared : ClassDeclaration) :
    List ClassDeclaration :=
  match declared.parent with
  | none => [declared]
  | some parent =>
    match found : unvisited.lookup (Name.lookupKey parent) with
    | none => [declared]
    | some above =>
      have := Unvisited.length_without_lt found
      declared :: parentChain (unvisited.without (Name.lookupKey parent)) above
termination_by unvisited.length

/-- The declaration and the classes it inherits from, nearest first. The chain
ends at a parent that is unknown or in the chain already. -/
def ancestors (index : ClassIndex) (declared : ClassDeclaration) : List ClassDeclaration :=
  parentChain (Unvisited.without index.classes.entries declared.key) declared

/-- The constructor of the class itself or of its nearest ancestor with one. -/
def constructorOf (index : ClassIndex) (declared : ClassDeclaration) : Option Constructor :=
  (index.ancestors declared).findSome? ClassDeclaration.constructor

/-- A concrete class whose constructor, if there is one, is public. -/
def isInstantiable (index : ClassIndex) (declared : ClassDeclaration) : Bool :=
  declared.kind == .classKind && !declared.isAbstract
    && (index.constructorOf declared).all (fun constructor =>
      constructor.visibility == .publicAccess)

/-- The files of the declaration and of all known types above it. -/
def ancestryFiles (index : ClassIndex) (declared : ClassDeclaration) : OrderedSet Path :=
  let above := (index.supertypes declared).toList.filterMap (fun key =>
    (index.classes.get? key).map ClassDeclaration.file)
  (OrderedSet.ofListLast above).insertNew declared.file ()

end ClassIndex

end FactoryProxy
