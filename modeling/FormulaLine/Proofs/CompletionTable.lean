import FormulaLine.Proofs.DisplayOrder
import FormulaLine.Proofs.FirstAppearance
import Mathlib.Data.List.Infix

namespace FormulaLine
namespace Completion

/-!
# The completion table is exact

The cuts of a call pair each nonempty prefix of the name with what is missing of
the call.  A cut that an earlier name has shown is dropped, which loses no
completion, since the pair is there already, and moves no key, since the pair has
shown its key before.

So the keys are the prefixes of the names in order of first appearance, and the
completions of a key are different and not none.  A list of that kind forms a
hint; therefore every key has an entry.
-/

/-! ## Cuts of a word -/

theorem cuts_cons (c : Char) {word : List Char} (nonempty : word ≠ []) :
    cuts (c :: word) = ([c], word) :: (cuts word).map fun cut => (c :: cut.1, cut.2) := by
  rcases List.exists_cons_of_ne_nil nonempty with ⟨d, rest, rfl⟩
  rfl

theorem mem_cuts_iff (word : List Char) (cut : Cut) :
    cut ∈ cuts word ↔ cut.1 ≠ [] ∧ cut.2 ≠ [] ∧ cut.1 ++ cut.2 = word := by
  induction word generalizing cut with
  | nil =>
      simp only [cuts, List.not_mem_nil, false_iff]
      rintro ⟨nonempty, -, parts⟩
      exact nonempty (List.append_eq_nil_iff.mp parts).1
  | cons c word ih =>
      by_cases single : word = []
      · subst single
        simp only [cuts, List.not_mem_nil, false_iff]
        rintro ⟨typed, missing, parts⟩
        rcases List.append_eq_singleton_iff.mp parts with ⟨none, -⟩ | ⟨-, none⟩
        · exact typed none
        · exact missing none
      · rw [cuts_cons c single, List.mem_cons, List.mem_map]
        constructor
        · rintro (rfl | ⟨inner, member, rfl⟩)
          · exact ⟨List.cons_ne_nil c [], single, rfl⟩
          · rcases (ih inner).mp member with ⟨-, missing, parts⟩
            exact ⟨List.cons_ne_nil c inner.1, missing, congrArg (c :: ·) parts⟩
        · rcases cut with ⟨typed, missing⟩
          rintro ⟨typedNonempty, missingNonempty, parts⟩
          rcases List.exists_cons_of_ne_nil typedNonempty with ⟨d, typed, rfl⟩
          rcases List.cons.inj parts with ⟨rfl, behind⟩
          by_cases short : typed = []
          · subst short
            exact Or.inl (congrArg (Prod.mk [d]) behind)
          · exact Or.inr ⟨(typed, missing), (ih _).mpr ⟨short, missingNonempty, behind⟩, rfl⟩

theorem nodup_cuts (word : List Char) : (cuts word).Nodup := by
  induction word with
  | nil => exact List.nodup_nil
  | cons c word ih =>
      by_cases single : word = []
      · subst single
        exact List.nodup_nil
      · rw [cuts_cons c single, List.nodup_cons]
        constructor
        · intro member
          rcases List.mem_map.mp member with ⟨inner, inCuts, same⟩
          exact ((mem_cuts_iff word inner).mp inCuts).1 (List.cons.inj (Prod.ext_iff.mp same).1).2
        · apply ih.map
          intro first second same
          rcases Prod.ext_iff.mp same with ⟨typed, missing⟩
          exact Prod.ext (List.cons.inj typed).2 missing

/-- The nonempty prefixes of a name, shorter ones first. -/
def prefixes (name : List Char) : List (List Char) :=
  name.inits.tail

theorem inits_eq_prefixes (name : List Char) : name.inits = [] :: prefixes name := by
  cases name with
  | nil => rfl
  | cons c name => rw [prefixes, List.inits_cons, List.tail_cons]

theorem prefixes_cons (c : Char) (name : List Char) :
    prefixes (c :: name) = [c] :: (prefixes name).map (c :: ·) := by
  rw [prefixes, List.inits_cons, List.tail_cons, inits_eq_prefixes, List.map_cons]

theorem mem_prefixes_iff (name part : List Char) :
    part ∈ prefixes name ↔ part ≠ [] ∧ part <+: name := by
  have apart : [] ∉ prefixes name := by
    cases name with
    | nil => exact List.not_mem_nil
    | cons c name =>
        rw [prefixes, List.inits_cons, List.tail_cons, List.mem_map]
        rintro ⟨rest, -, impossible⟩
        cases impossible
  rw [← List.mem_inits, inits_eq_prefixes, List.mem_cons]
  constructor
  · intro member
    exact ⟨fun empty => apart (empty ▸ member), Or.inr member⟩
  · rintro ⟨nonempty, here⟩
    exact here.resolve_left nonempty

theorem call_ne_nil (name : List Char) : call name ≠ [] :=
  List.append_ne_nil_of_right_ne_nil name (List.cons_ne_nil '(' [])

/-- The first parts of the cuts of a call are the prefixes of the name. -/
theorem map_fst_cuts_call (name : List Char) :
    (cuts (call name)).map Prod.fst = prefixes name := by
  induction name with
  | nil => rfl
  | cons c name ih =>
      have whole : call (c :: name) = c :: call name := rfl
      rw [whole, cuts_cons c (call_ne_nil name), prefixes_cons, ← ih, List.map_cons, List.map_map,
        List.map_map]
      rfl

/-! ## Cuts of all calls -/

/-- To drop what earlier words have shown is to keep first appearances. -/
theorem flatten_freshCuts (seen : List Cut) (words : List (List Char)) :
    (freshCuts seen words).flatten =
      ((words.flatMap cuts).filter fun cut => !seen.contains cut).eraseDups := by
  induction words generalizing seen with
  | nil => rfl
  | cons word words ih =>
      have nodupFresh := (nodup_cuts word).filter fun cut => !seen.contains cut
      rw [freshCuts, List.flatten_cons, ih, List.flatMap_cons, List.filter_append,
        List.eraseDups_append, eraseDups_eq_self nodupFresh, List.removeAll, List.filter_filter]
      simp only [List.contains_append, Bool.not_or, Bool.and_comm, List.elem_eq_contains]

theorem cutsOfNames_eq (names : List (List Char)) :
    cutsOfNames names = (names.flatMap fun name => cuts (call name)).eraseDups := by
  rw [cutsOfNames, flatten_freshCuts, List.flatMap_map]
  simp

theorem mem_cutsOfNames_iff (names : List (List Char)) (cut : Cut) :
    cut ∈ cutsOfNames names ↔
      cut.1 ≠ [] ∧ cut.2 ≠ [] ∧ ∃ name ∈ names, cut.1 ++ cut.2 = call name := by
  rw [cutsOfNames_eq, List.mem_eraseDups, List.mem_flatMap]
  simp only [mem_cuts_iff]
  constructor
  · rintro ⟨name, member, typed, missing, parts⟩
    exact ⟨typed, missing, name, member, parts⟩
  · rintro ⟨typed, missing, name, member, parts⟩
    exact ⟨name, member, typed, missing, parts⟩

/-- The keys are the prefixes of the names, in order of first appearance. -/
theorem firstAppearances_cutsOfNames (names : List (List Char)) :
    firstAppearances ((cutsOfNames names).map Prod.fst) = (names.flatMap prefixes).eraseDups := by
  rw [firstAppearances_eq, cutsOfNames_eq, eraseDups_map_eraseDups, List.map_flatMap]
  simp only [map_fst_cuts_call]

/-! ## The hint of a key -/

theorem mem_completionsOf_iff (names : List (List Char)) {key : List Char} (nonempty : key ≠ [])
    (completion : List Char) :
    completion ∈ completionsOf key (cutsOfNames names) ↔
      completion ≠ [] ∧ ∃ name ∈ names, key ++ completion = call name := by
  rw [completionsOf, List.mem_map]
  constructor
  · rintro ⟨⟨typed, missing⟩, member, rfl⟩
    rcases List.mem_filter.mp member with ⟨inCuts, typedKey⟩
    have same : typed = key := beq_iff_eq.mp typedKey
    subst same
    exact ((mem_cutsOfNames_iff names _).mp inCuts).2
  · intro completes
    refine ⟨(key, completion), List.mem_filter.mpr ⟨?_, beq_self_eq_true key⟩, rfl⟩
    exact (mem_cutsOfNames_iff names _).mpr ⟨nonempty, completes⟩

theorem nodup_completionsOf (names : List (List Char)) (key : List Char) :
    (completionsOf key (cutsOfNames names)).Nodup := by
  have nodupCuts : (cutsOfNames names).Nodup := cutsOfNames_eq names ▸ nodup_eraseDups _
  apply (nodupCuts.filter fun cut => cut.1 == key).map_on
  intro first firstMember second secondMember same
  have firstKey : first.1 = key := beq_iff_eq.mp (List.mem_filter.mp firstMember).2
  have secondKey : second.1 = key := beq_iff_eq.mp (List.mem_filter.mp secondMember).2
  exact Prod.ext (firstKey.trans secondKey.symm) same

/-- Different completions, if there are any, form a hint. -/
theorem hintOf_eq_ok {completions : List (List Char)} (nonempty : completions ≠ [])
    (nodup : completions.Nodup) :
    ∃ hint, hintOf completions = .ok hint ∧ hint.candidates = sortCandidates completions ∧
      hint.kind = if hint.candidates.length = 1 then .single else .many := by
  cases completions with
  | nil => exact absurd rfl nonempty
  | cons completion others =>
      cases others with
      | nil => exact ⟨.single completion, rfl, rfl, rfl⟩
      | cons next more =>
          have nodupSorted := sortCandidates_nodup nodup
          have two_le : 2 ≤ (sortCandidates (completion :: next :: more)).length := by
            rw [(sortCandidates_perm _).length_eq]
            simp
          refine ⟨.many _ two_le nodupSorted, ?_, rfl, ?_⟩
          · rw [hintOf, Hint.ofMany, dif_pos two_le, dif_pos nodupSorted]
            simp
          · exact (if_neg (Nat.ne_of_gt two_le)).symm

/-- The hint offers what completes the key to the call of a name: all of it, each
completion once, and in the order of the display.  It is a choice unless there is
one completion only. -/
structure Completes (names : List (List Char)) (key : List Char) (hint : Hint) : Prop where
  mem_iff : ∀ completion, completion ∈ hint.candidates ↔
    completion ≠ [] ∧ ∃ name ∈ names, key ++ completion = name ++ ['(']
  nodup : hint.candidates.Nodup
  ordered : hint.candidates.Pairwise ShownBefore
  kind_eq : hint.kind = if hint.candidates.length = 1 then .single else .many

/-- A prefix of a name has an entry. -/
theorem entryOf_eq_ok {names : List (List Char)} {key : List Char}
    (isKey : key ∈ (names.flatMap prefixes).eraseDups) :
    ∃ hint, entryOf (cutsOfNames names) key = .ok (key, hint) ∧ Completes names key hint := by
  rcases List.mem_flatMap.mp (List.mem_eraseDups.mp isKey) with ⟨name, member, inName⟩
  rcases (mem_prefixes_iff name key).mp inName with ⟨nonempty, missing, parts⟩
  have completed : missing ++ ['('] ∈ completionsOf key (cutsOfNames names) := by
    refine (mem_completionsOf_iff names nonempty _).mpr ⟨by simp, name, member, ?_⟩
    rw [← List.append_assoc, parts]
    rfl
  have nodup := nodup_completionsOf names key
  rcases hintOf_eq_ok (List.ne_nil_of_mem completed) nodup with ⟨hint, formed, sorted, kind⟩
  refine ⟨hint, by rw [entryOf, formed], ?_, ?_, ?_, kind⟩
  · intro completion
    rw [sorted, (sortCandidates_perm _).mem_iff]
    exact mem_completionsOf_iff names nonempty completion
  · rw [sorted]
    exact sortCandidates_nodup nodup
  · rw [sorted]
    exact sortCandidates_shownBefore nodup

/-! ## The table -/

/-- If each key has an entry, the entries are found, in the order of the keys. -/
theorem mapM_entry_eq_ok {entry : List Char → Except TableFault (List Char × Hint)}
    {Meets : List Char → Hint → Prop} {keys : List (List Char)}
    (each : ∀ key ∈ keys, ∃ hint, entry key = .ok (key, hint) ∧ Meets key hint) :
    ∃ entries, keys.mapM entry = .ok entries ∧ entries.map Prod.fst = keys ∧
      ∀ found ∈ entries, Meets found.1 found.2 := by
  induction keys with
  | nil => exact ⟨[], rfl, rfl, by simp⟩
  | cons key keys ih =>
      rcases each key List.mem_cons_self with ⟨hint, here, meets⟩
      rcases ih (fun other member => each other (List.mem_cons_of_mem key member)) with
        ⟨entries, later, inOrder, meetLater⟩
      refine ⟨(key, hint) :: entries, ?_, congrArg (key :: ·) inOrder, ?_⟩
      · rw [List.mapM_cons, here, later]
        rfl
      · intro found member
        rcases List.mem_cons.mp member with rfl | old
        · exact meets
        · exact meetLater found old

/-- A list of nonempty names has a table if each key has an entry. -/
theorem compile_eq_ok {names : List (List Char)} (nonempty : ∀ name ∈ names, name ≠ [])
    {entries : List (List Char × Hint)}
    (found : (names.flatMap prefixes).eraseDups.mapM (entryOf (cutsOfNames names)) = .ok entries) :
    compile names = .ok ⟨entries⟩ := by
  have known : names.find? (fun name => !(names.flatMap prefixes).eraseDups.contains name) = none := by
    rw [List.find?_eq_none]
    intro name member
    have isKey : name ∈ (names.flatMap prefixes).eraseDups := List.mem_eraseDups.mpr
      (List.mem_flatMap.mpr ⟨name, member, (mem_prefixes_iff name name).mpr
        ⟨nonempty name member, List.prefix_refl name⟩⟩)
    simpa using isKey
  rw [compile, firstAppearances_cutsOfNames, known, found]
  rfl

/-- The table of a list of nonempty names.  Its keys are the nonempty prefixes of
the names, in the order in which they first appear, and every key has the hint
that completes it. -/
theorem compile_exact {names : List (List Char)} (nonempty : ∀ name ∈ names, name ≠ []) :
    ∃ table, compile names = .ok table ∧
      table.entries.map Prod.fst = (names.flatMap prefixes).eraseDups ∧
      (table.entries.map Prod.fst).Nodup ∧
      ∀ entry ∈ table.entries, Completes names entry.1 entry.2 := by
  rcases mapM_entry_eq_ok fun key (isKey : key ∈ (names.flatMap prefixes).eraseDups) =>
    entryOf_eq_ok isKey with ⟨entries, found, inOrder, completes⟩
  exact ⟨⟨entries⟩, compile_eq_ok nonempty found, inOrder, inOrder ▸ nodup_eraseDups _, completes⟩

theorem compile_exact_of_shared_prefixes :
    let names := ["text".toList, "te".toList, "text".toList, "te(".toList, "tan".toList]
    (∀ name ∈ names, name ≠ []) ∧ ∃ table, compile names = .ok table ∧
      table.entries.map Prod.fst = (names.flatMap prefixes).eraseDups ∧
      (table.entries.map Prod.fst).Nodup ∧
      ∀ entry ∈ table.entries, Completes names entry.1 entry.2 :=
  ⟨by decide, compile_exact (by decide)⟩

/-- A completion that two names share is offered once. -/
example : (compile ["ab".toList, "a".toList, "ab".toList]).toOption.map
      (fun table => table.entries.map fun entry => (entry.1, entry.2.candidates)) =
    some [("a".toList, ["(".toList, "b(".toList]), ("ab".toList, ["(".toList])] := by
  decide

/-! ## The standard table -/

theorem standard_of_build {table : CompletionTable}
    (built : build Vocabulary.functions = .ok table) : CompletionTable.standard = table := by
  rw [CompletionTable.standard, built]
  rfl

theorem standard_entries :
    CompletionTable.standard.entries.map Prod.fst =
        (Vocabulary.functions.flatMap prefixes).eraseDups ∧
      ∀ entry ∈ CompletionTable.standard.entries,
        Completes Vocabulary.functions entry.1 entry.2 := by
  rcases mapM_entry_eq_ok fun key
      (isKey : key ∈ (Vocabulary.functions.flatMap prefixes).eraseDups) => entryOf_eq_ok isKey with
    ⟨entries, found, inOrder, completes⟩
  have valid : Vocabulary.functions.find? (fun name => !isValidName name) = none := by decide
  have built : build Vocabulary.functions = .ok ⟨entries⟩ := by
    rw [build, valid]
    exact compile_eq_ok (by decide) found
  rw [standard_of_build built]
  exact ⟨inOrder, completes⟩

theorem mem_entries_of_get?_standard {key : List Char} {hint : Hint}
    (found : CompletionTable.standard.get? key = some hint) :
    (key, hint) ∈ CompletionTable.standard.entries := by
  rcases Option.map_eq_some_iff.mp found with ⟨entry, entryFound, rfl⟩
  have same : entry.1 = key := by simpa using List.find?_some entryFound
  exact same ▸ List.mem_of_find?_eq_some entryFound

/-- The keys of the standard table are what supported names start with. -/
theorem prefix_of_get?_standard {key : List Char} {hint : Hint}
    (found : CompletionTable.standard.get? key = some hint) :
    key ≠ [] ∧ ∃ name ∈ Vocabulary.functions, key <+: name := by
  have isKey := List.mem_map_of_mem (mem_entries_of_get?_standard found) (f := Prod.fst)
  rw [standard_entries.1, List.mem_eraseDups, List.mem_flatMap] at isKey
  rcases isKey with ⟨name, member, inName⟩
  rcases (mem_prefixes_iff name key).mp inName with ⟨nonempty, here⟩
  exact ⟨nonempty, name, member, here⟩

theorem completes_of_get?_standard {key : List Char} {hint : Hint}
    (found : CompletionTable.standard.get? key = some hint) :
    key ≠ [] ∧ Completes Vocabulary.functions key hint :=
  ⟨(prefix_of_get?_standard found).1, standard_entries.2 _ (mem_entries_of_get?_standard found)⟩

/-- What a supported name starts with is a key of the standard table. -/
theorem exists_get?_standard {key name : List Char} (nonempty : key ≠ [])
    (member : name ∈ Vocabulary.functions) (here : key <+: name) :
    ∃ hint, CompletionTable.standard.get? key = some hint := by
  have isKey : key ∈ CompletionTable.standard.entries.map Prod.fst := by
    rw [standard_entries.1, List.mem_eraseDups]
    exact List.mem_flatMap.mpr ⟨name, member, (mem_prefixes_iff name key).mpr ⟨nonempty, here⟩⟩
  rcases List.mem_map.mp isKey with ⟨entry, inEntries, same⟩
  have found : (CompletionTable.standard.entries.find? fun entry => entry.1 == key).isSome := by
    rw [List.find?_isSome]
    exact ⟨entry, inEntries, by simpa using same⟩
  rcases Option.isSome_iff_exists.mp found with ⟨first, firstFound⟩
  exact ⟨first.2, by rw [CompletionTable.get?, firstFound]; rfl⟩

end Completion
end FormulaLine
