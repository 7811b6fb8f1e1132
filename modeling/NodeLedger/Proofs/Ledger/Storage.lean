import NodeLedger.Ledger.File
import NodeLedger.Proofs.FileTree.Replace
import NodeLedger.Proofs.Json.Document
import NodeLedger.Proofs.Ledger.Entries

/-!
# The ledger in its file

Where a file may be put, a ledger is saved without fail, and it is loaded again with its entries in
order. Everything else in the tree stays as it was.

- `Unsplit`: the entries split no character into halves.
- `load_of_file`, `load_of_none`: **a saved ledger is loaded again**, and an absent one is reported.
- `exists_save`, `deleteFile_of_file`: what saving and deleting do.
- `ofStrings_comes_back`: **lists of strings are written in printable ASCII and come back in order**.
-/

namespace NodeLedger.Ledger

open Text FileTree

/-- No entry splits a character into halves. -/
def Unsplit (ledger : Ledger) : Prop :=
  (∀ e ∈ ledger.instances, e.Unsplit) ∧ ∀ e ∈ ledger.groups, e.Unsplit

instance (ledger : Ledger) : Decidable ledger.Unsplit :=
  inferInstanceAs (Decidable (_ ∧ _))

section Content

variable [Json.Nesting] {ledger : Ledger}

/-- The JSON value of a ledger comes back from its text. -/
theorem readable_json (h : ledger.Unsplit) : Json.Readable Json.Nesting.limit ledger.json := by
  -- The document has two levels.
  obtain ⟨depth, hdepth⟩ := Nat.exists_eq_add_of_le' (Nat.le_of_succ_le Json.Nesting.enough)
  have harr : ∀ entries : List CodeText, (∀ e ∈ entries, e.Unsplit) →
      Json.Readable (depth + 1) (.arr (entries.map .str)) := by
    intro entries hentries
    refine .arr fun item hitem => ?_
    obtain ⟨e, he, rfl⟩ := List.mem_map.1 hitem
    exact .scalar (.str e (hentries e he))
  have hnames : [CodeText.ofString instancesKey, CodeText.ofString groupsKey].Nodup := by
    decide +kernel
  rw [hdepth]
  refine .obj hnames ?_ ?_
  · intro member hmember
    simp only [List.mem_cons, List.not_mem_nil, or_false] at hmember
    rcases hmember with rfl | rfl
    · exact CodeText.unsplit_ofString instancesKey
    · exact CodeText.unsplit_ofString groupsKey
  · intro member hmember
    simp only [List.mem_cons, List.not_mem_nil, or_false] at hmember
    rcases hmember with rfl | rfl
    · exact harr _ h.1
    · exact harr _ h.2

/-- The text of a ledger is read back from its bytes. -/
theorem readBytes_text (h : ledger.Unsplit) :
    Json.readBytes (encode ledger.text.toList) = .ok ledger.json :=
  Json.readBytes_compact (readable_json h)

end Content

section File

variable {ledger : Ledger} {tree later : FileTree} {path name : CodeText} {directory : Location}

/-- A file that holds the text of a ledger holds the ledger. -/
theorem load_of_read [Json.Nesting] (h : ledger.Unsplit)
    (hread : tree.read path = .ok (encode ledger.text.toList)) :
    load tree path = .ok ⟨sortEntries ledger.instances, sortEntries ledger.groups⟩ := by
  rw [load, Json.readFile, hread]
  dsimp only
  rw [readBytes_text h]
  dsimp only
  rw [ofJson_json]
  rfl

/-- **A saved ledger is loaded again**, with its entries in order. -/
theorem load_of_file [Json.Nesting] (hvacancy : tree.Vacancy path directory name)
    (hfilled : FilledAt (directory ++ [name]) tree later) (h : ledger.Unsplit) {mode : Nat}
    (hnode : later.node? (directory ++ [name]) = some (.file (encode ledger.text.toList) mode)) :
    load later path = .ok ⟨sortEntries ledger.instances, sortEntries ledger.groups⟩ :=
  load_of_read h (hvacancy.read_of_file hfilled hnode)

theorem load_of_none [Json.Nesting] (hvacancy : tree.Vacancy path directory name)
    (hfilled : FilledAt (directory ++ [name]) tree later)
    (hnode : later.node? (directory ++ [name]) = none) :
    load later path = .error (.ledger (.noFile path)) := by
  rw [load, Json.readFile, hvacancy.read_of_none hfilled hnode]
  rfl

/-- **Saving puts the ledger into its file**, and changes nothing else. -/
theorem exists_save (hvacancy : tree.Vacancy path directory name)
    (hfilled : FilledAt (directory ++ [name]) tree later) (ledger : Ledger) :
    ∃ saved, ledger.save path later = (.ok (), saved) ∧
      FilledAt (directory ++ [name]) tree saved ∧
      saved.node? (directory ++ [name]) = some (.file (encode ledger.text.toList) plainMode) := by
  obtain ⟨source, temporary, hcreate, hcreated⟩ :=
    hvacancy.exists_createBeside hfilled (encode ledger.text.toList)
  unfold save
  rw [hcreate]
  -- From here on only the place of the content matters.
  generalize encode ledger.text.toList = content at hcreated ⊢
  have hsource : (later.insert source (.file content plainMode)).node? source
      = some (.file content plainMode) := node?_insert_self hcreated.ne_nil
  obtain ⟨saved, hmove, hsaved, hnode⟩ := hvacancy.exists_move hfilled hcreated hsource temporary
  refine ⟨saved, ?_, hsaved, hnode⟩
  dsimp only
  rw [hmove]

theorem deleteFile_of_file (hvacancy : tree.Vacancy path directory name)
    (hfilled : FilledAt (directory ++ [name]) tree later) {content : List UInt8} {mode : Nat}
    (hnode : later.node? (directory ++ [name]) = some (.file content mode)) :
    deleteFile path later = (.ok (), later.erase (directory ++ [name])) := by
  rw [deleteFile, hvacancy.remove hfilled hnode]

end File

/-! ## Ledgers of strings -/

/-- The ledger of two lists of strings, in any order and with repeats. -/
def ofStrings (instances groups : List String) : Ledger :=
  ⟨instances.map .ofString, groups.map .ofString⟩

section Strings

variable {tree : FileTree} {path : CodeText}

theorem unsplit_ofStrings (instances groups : List String) : (ofStrings instances groups).Unsplit := by
  have hmap : ∀ names : List String, ∀ e ∈ names.map CodeText.ofString, e.Unsplit := by
    intro names e he
    obtain ⟨name, -, rfl⟩ := List.mem_map.1 he
    exact CodeText.unsplit_ofString name
  exact ⟨hmap instances, hmap groups⟩

/-- Strings are sorted as strings. -/
theorem sortEntries_ofString (names : List String) :
    ∃ sorted : List String, sorted.Perm names ∧ sorted.Pairwise (· ≤ ·) ∧
      sortEntries (names.map CodeText.ofString) = sorted.map CodeText.ofString := by
  have hperm : (names.mergeSort (· ≤ ·)).Perm names := List.mergeSort_perm _ _
  have hsorted : (names.mergeSort (· ≤ ·)).Pairwise (· ≤ ·) := List.pairwise_mergeSort' (· ≤ ·) names
  refine ⟨_, hperm, hsorted, (eq_sortEntries ?_ (hperm.map _)).symm⟩
  refine List.pairwise_map.2 (hsorted.imp fun hle => ?_)
  exact CodeText.le_iff_not_lt.2 fun hlt => String.not_lt.2 hle ((CodeText.ofString_lt_ofString _ _).1 hlt)

/-- **Lists of strings are written in printable ASCII**, on one line therefore, **and come back**, each
in the order of code points, from every file that holds that text. Nothing else is asked of the
strings: they may be in any order, come more than once, be empty, and hold any character. -/
theorem ofStrings_comes_back [Json.Nesting] (instances groups : List String)
    (hread : tree.read path = .ok (encode (ofStrings instances groups).text.toList)) :
    (∀ c ∈ (ofStrings instances groups).text.toList, 0x20 ≤ c.toNat ∧ c.toNat < 0x7f) ∧
      ∃ sortedInstances sortedGroups : List String,
        load tree path = .ok (ofStrings sortedInstances sortedGroups) ∧
          sortedInstances.Perm instances ∧ sortedInstances.Pairwise (· ≤ ·) ∧
          sortedGroups.Perm groups ∧ sortedGroups.Pairwise (· ≤ ·) := by
  have hunsplit := unsplit_ofStrings instances groups
  refine ⟨fun c hc => Json.printable_of_mem_compact hc, ?_⟩
  obtain ⟨I, hpermI, hsortedI, hI⟩ := sortEntries_ofString instances
  obtain ⟨G, hpermG, hsortedG, hG⟩ := sortEntries_ofString groups
  refine ⟨I, G, ?_, hpermI, hsortedI, hpermG, hsortedG⟩
  rw [load_of_read hunsplit hread]
  exact congrArg Except.ok (congrArg₂ Ledger.mk hI hG)

attribute [local instance] Json.Nesting.usual

theorem quoted_names_come_back :
    let instances := ["\"b\\\r\n", "", "i-1", "i-1", "\x07"]
    let groups := ["𝄞", "ä", "\uffff"]
    let tree : FileTree :=
      ⟨[(["srv"], .directory),
        (["srv", "ids.json"], .file (encode (ofStrings instances groups).text.toList) 0o600)], ["srv"]⟩
    tree.read "ids.json" = .ok (encode (ofStrings instances groups).text.toList) ∧
      ∃ sortedInstances sortedGroups : List String,
        load tree "ids.json" = .ok (ofStrings sortedInstances sortedGroups) ∧
          sortedInstances.Perm instances ∧ sortedGroups.Perm groups := by
  intro instances groups tree
  have hread : tree.read "ids.json" = .ok (encode (ofStrings instances groups).text.toList) := by
    decide +kernel
  obtain ⟨-, I, G, hload, hpermI, -, hpermG, -⟩ := ofStrings_comes_back instances groups hread
  exact ⟨hread, I, G, hload, hpermI, hpermG⟩

end Strings

end NodeLedger.Ledger
