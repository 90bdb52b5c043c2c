import FactoryProxy.Proofs.ClassIndex.Reachability
import FactoryProxy.Proofs.OrderedMap.Spelling

/-!
Contract: the supertypes of a declaration and the files of its ancestry.

Owns: the chains of names behind `extends` and `implements`, the exact set of keys at
their ends, the files of the declarations under these keys, and a bound on the search.

Does not own: the search as a relation, which `ClassIndex.Reachability` gives.
-/

namespace FactoryProxy.ClassIndex

variable {index : ClassIndex} {declared : ClassDeclaration}

/-! ## Chains of names -/

/-- The first name stands behind `extends` or `implements` of the declaration, and each
further one behind those of the declaration that the name before it finds. -/
inductive NameChain (index : ClassIndex) : ClassDeclaration → List String → Prop where
  | last {declared : ClassDeclaration} {name : String}
      (named : name ∈ declared.supertypeNames) : NameChain index declared [name]
  | next {declared above : ClassDeclaration} {name : String} {names : List String}
      (named : name ∈ declared.supertypeNames) (found : index.get? name = some above)
      (further : NameChain index above names) : NameChain index declared (name :: names)

theorem NameChain.ne_nil {names : List String} (chain : NameChain index declared names) :
    names ≠ [] := by
  cases chain <;> simp

theorem NameChain.reaches {names : List String} (chain : NameChain index declared names)
    {name : String} (isLast : names.getLast? = some name) :
    Reaches index declared (Name.lookupKey name) := by
  induction chain with
  | last named =>
      obtain rfl : _ = name := by simpa using isLast
      exact .direct (List.mem_map_of_mem named)
  | next named found further inductionHypothesis =>
      rw [List.getLast?_cons_of_ne_nil further.ne_nil] at isLast
      exact .through (List.mem_map_of_mem named) found (inductionHypothesis isLast)

/-- Chains of keys are the chains of names seen through their keys. -/
theorem reaches_iff_nameChain {key : String} :
    Reaches index declared key ↔
      ∃ names name, NameChain index declared names ∧ names.getLast? = some name ∧
        Name.lookupKey name = key := by
  constructor
  · intro reaches
    induction reaches with
    | direct named =>
        obtain ⟨name, isName, rfl⟩ := List.mem_map.mp named
        exact ⟨[name], name, .last isName, rfl, rfl⟩
    | through named indexed _ inductionHypothesis =>
        obtain ⟨first, isFirst, rfl⟩ := List.mem_map.mp named
        obtain ⟨names, name, chain, isLast, isKey⟩ := inductionHypothesis
        refine ⟨first :: names, name, .next isFirst indexed chain, ?_, isKey⟩
        rw [List.getLast?_cons_of_ne_nil chain.ne_nil]
        exact isLast
  · rintro ⟨names, name, chain, isLast, rfl⟩
    exact chain.reaches isLast

theorem mem_supertypes_iff {key : String} :
    key ∈ (index.supertypes declared).toList ↔ Reaches index declared key := by
  rw [← OrderedSet.contains_iff_mem_toList, contains_supertypes_iff]

/-! ## The length of the search -/

/-- A search takes at most one step for each pending name and each name that an
unvisited entry refers to. -/
theorem length_reached_le (unvisited : Unvisited) (pending : List String) :
    (reached unvisited pending).length ≤ pending.length + unvisited.references := by
  fun_induction reached unvisited pending with
  | case1 => simp
  | case2 unvisited key rest unknown inductionHypothesis =>
      simp only [List.length_cons]
      omega
  | case3 unvisited key rest declared found bounded inductionHypothesis =>
      simp only [List.length_cons, List.length_append] at inductionHypothesis ⊢
      omega

/-! ## Files -/

theorem contains_insertNew_iff {set : OrderedSet Path} {path other : Path} :
    (set.insertNew path ()).contains other = true ↔
      other.components = path.components ∨ set.contains other = true := by
  unfold OrderedMap.contains
  rw [OrderedMap.entry?_insertNew, Option.isSome_or, Bool.or_eq_true, or_comm]
  refine or_congr_left ?_
  rw [← Path.compare_eq_iff]
  cases same : compare other path == .eq <;> simp_all

/-- The files above a declaration are those found under the keys of its supertypes. -/
theorem mem_filesAbove_iff {path : Path} :
    path ∈ (index.supertypes declared).toList.filterMap (fun key =>
        (index.classes.get? key).map ClassDeclaration.file) ↔
      ∃ key ∈ (index.supertypes declared).toList, ∃ above,
        index.classes.get? key = some above ∧ above.file = path := by
  simp only [List.mem_filterMap, Option.map_eq_some_iff]

theorem contains_ancestryFiles_iff {path : Path} :
    (index.ancestryFiles declared).contains path = true ↔
      path.components = declared.file.components ∨
        ∃ key ∈ (index.supertypes declared).toList, ∃ above,
          index.classes.get? key = some above ∧ path.components = above.file.components := by
  unfold ancestryFiles
  rw [contains_insertNew_iff, OrderedSet.contains_ofListLast_iff]
  refine or_congr_right ?_
  constructor
  · rintro ⟨file, isAbove, same⟩
    obtain ⟨key, member, above, found, rfl⟩ := mem_filesAbove_iff.mp isAbove
    exact ⟨key, member, above, found, Path.compare_eq_iff.mp same⟩
  · rintro ⟨key, member, above, found, same⟩
    exact ⟨above.file, mem_filesAbove_iff.mpr ⟨key, member, above, found, rfl⟩,
      Path.compare_eq_iff.mpr same⟩

/-- A file of the ancestry is spelled as in the declaration that it is taken from. -/
theorem origin_of_ancestryFiles {path : Path} (member : path ∈ (index.ancestryFiles declared).toList) :
    path = declared.file ∨
      ∃ key ∈ (index.supertypes declared).toList, ∃ above,
        index.classes.get? key = some above ∧ above.file = path := by
  obtain ⟨entry, isEntry, rfl⟩ := List.mem_map.mp member
  rcases OrderedMap.mem_insertNew isEntry with isNew | isOld
  · exact .inl (congrArg Prod.fst isNew)
  · refine .inr (mem_filesAbove_iff.mp ?_)
    exact OrderedSet.mem_of_mem_toList_ofListLast (List.mem_map_of_mem isOld)

/-- For every hierarchy the supertypes of a declaration are exactly the keys at the end of
chains of names, found in a bounded search, and the files of its ancestry are exactly its own
file and those of the declarations under these keys. -/
theorem supertypes_and_files_exact (index : ClassIndex) (declared : ClassDeclaration) :
    (∀ key, key ∈ (index.supertypes declared).toList ↔
        ∃ names name, NameChain index declared names ∧ names.getLast? = some name ∧
          Name.lookupKey name = key) ∧
      (reached index.classes.entries declared.supertypeKeys).length ≤
        declared.supertypeNames.length + Unvisited.references index.classes.entries ∧
      (∀ path, (index.ancestryFiles declared).contains path = true ↔
        path.components = declared.file.components ∨
          ∃ key ∈ (index.supertypes declared).toList, ∃ above,
            index.classes.get? key = some above ∧ path.components = above.file.components) ∧
      ∀ path ∈ (index.ancestryFiles declared).toList,
        path = declared.file ∨
          ∃ key ∈ (index.supertypes declared).toList, ∃ above,
            index.classes.get? key = some above ∧ above.file = path := by
  refine ⟨?_, ?_, ?_, ?_⟩
  · intro key
    rw [mem_supertypes_iff, reaches_iff_nameChain]
  · have bounded := length_reached_le index.classes.entries declared.supertypeKeys
    rw [ClassDeclaration.supertypeKeys, List.length_map] at bounded
    exact bounded
  · intro path
    exact contains_ancestryFiles_iff
  · intro path member
    exact origin_of_ancestryFiles member

end FactoryProxy.ClassIndex
