import NodeLedger.Proofs.FileTree.Beside
import NodeLedger.Proofs.Ledger.Place
import NodeLedger.Proofs.Parts
import NodeLedger.Proofs.Sequence

/-!
# Credentials beside the ledger

The credentials of an instance are kept in a file beside the ledger, under the name of the instance.
They are written and taken away by that name. Whatever stands there, only files change, and never the
ledger file, unless the name is the ledger's own or leads through a link.

- `Aside`: a path that leads neither to a location nor to a link. `aside_of_isName` gives the names
  for which a path beside the ledger does.
- `FileAt`: a path leads to a file at a location.
- `Swept`: the files that some paths lead to are gone, and everything else is as it was.
- `swept_of_runOn_dropCredentials`: **taking credentials away** never fails, and sweeps their files.
- `exists_runOn_storeCredentials`: **storing credentials** that are a string does not fail, and changes
  one file.
-/

namespace NodeLedger

open Text FileTree

namespace FileTree

/-! ## Paths aside -/

section Aside

variable {tree later : FileTree} {path : CodeText} {directory location : Location}

/-- The path leads neither to the location nor to a link, if it is a path that a file can have. -/
def Aside (tree : FileTree) (location : Location) (path : CodeText) : Prop :=
  Path.fault? path = none → ∀ directory name slash,
    tree.locate .replace path = .ok (.entry directory name slash) →
      directory ++ [name] ≠ location ∧ tree.NoLinkAt (.entry directory name slash)

/-- The path leads to a file at the location. -/
def FileAt (tree : FileTree) (path : CodeText) (location : Location) : Prop :=
  ∃ directory name, Path.fault? path = none ∧
    tree.locate .replace path = .ok (.entry directory name false) ∧ location = directory ++ [name] ∧
      ∃ content mode, tree.node? location = some (.file content mode)

theorem Aside.of_alike (haside : Aside tree location path) (h : Alike tree later) :
    Aside later location path := by
  intro hfault directory name slash hplace
  obtain ⟨hne, hlink⟩ := haside hfault directory name slash (locate_of_alike h.symm hplace)
  exact ⟨hne, noLinkAt_of_alike h hlink⟩

theorem Aside.not_fileAt (haside : Aside tree location path) : ¬ FileAt tree path location := by
  rintro ⟨directory, name, hfault, hplace, rfl, -⟩
  exact (haside hfault directory name false hplace).1 rfl

/-- Files elsewhere do not matter for the file that a path leads to. -/
theorem FileAt.of_alike (hfile : FileAt tree path location) (h : Alike tree later)
    (hnode : later.node? location = tree.node? location) : FileAt later path location := by
  obtain ⟨directory, name, hfault, hplace, hlocation, content, mode, hthere⟩ := hfile
  exact ⟨directory, name, hfault, locate_of_alike h hplace, hlocation, content, mode,
    hnode.trans hthere⟩

theorem FileAt.unique {other : Location} (h : FileAt tree path location)
    (h' : FileAt tree path other) : other = location := by
  obtain ⟨directory, name, -, hplace, rfl, -⟩ := h
  obtain ⟨directory', name', -, hplace', rfl, -⟩ := h'
  cases hplace.symm.trans hplace'
  rfl

theorem FileAt.present (h : FileAt tree path location) : tree.present path = true := by
  obtain ⟨directory, name, hfault, hplace, rfl, content, mode, hfile⟩ := h
  have hlook : tree.locate .look path = .ok (.entry directory name false) := by
    refine locate_look_of_replace hplace fun target hlink => ?_
    rw [hfile] at hlink
    cases hlink
  rw [FileTree.present, kindOf?_of_none hfault, hlook]
  dsimp only [directoryAt?]
  rw [hfile]
  rfl

/-- A path that leaves links aside is removed together with the file that it leads to, if it leads to
one. -/
theorem cases_of_remove (haside : Aside tree location path) (hfault : Path.fault? path = none) :
    (∃ l, FileAt tree path l ∧ tree.remove path = .ok (tree.erase l)) ∨
      (∀ l, ¬ FileAt tree path l) ∧
        ∃ refusal, tree.remove path = .error (.refused refusal path) := by
  have hremove : tree.remove path
      = (tree.locate .replace path >>= tree.removeAt).mapError (.refused · path) := by
    rw [remove, onPath_of_none hfault]
  -- Where removing is refused, the path leads to no file.
  have hrefused : ∀ refusal, (tree.locate .replace path >>= tree.removeAt) = .error refusal →
      (∀ l, ¬ FileAt tree path l) ∧
        ∃ refusal, tree.remove path = .error (.refused refusal path) := by
    intro refusal hrefusal
    constructor
    · rintro l ⟨directory, name, -, hplace, rfl, content, mode, hfile⟩
      rw [hplace] at hrefusal
      change tree.removeAt (.entry directory name false) = _ at hrefusal
      rw [removeAt, hfile] at hrefusal
      cases hrefusal
    · exact ⟨refusal, by rw [hremove, hrefusal]; rfl⟩
  cases houtcome : tree.locate .replace path >>= tree.removeAt with
  | error refusal => exact .inr (hrefused refusal houtcome)
  | ok rest =>
    obtain ⟨place, hplace, hat⟩ := exists_of_bind_eq_ok houtcome
    cases place with
    | directory => cases hat
    | entry directory name slash =>
      obtain ⟨-, hlink⟩ := haside hfault directory name slash hplace
      rw [removeAt] at hat
      split at hat
      · cases hat
      · cases hat
      · rename_i node hnotDirectory hnode
        split at hat
        · cases hat
        rename_i hslash
        cases hat
        obtain rfl := Bool.not_eq_true _ ▸ hslash
        refine .inl ⟨directory ++ [name], ?_, by rw [hremove, houtcome]; rfl⟩
        refine ⟨directory, name, hfault, hplace, rfl, ?_⟩
        cases node with
        | directory => exact absurd rfl hnotDirectory
        | link target => exact absurd hnode (hlink target)
        | file content mode => exact ⟨content, mode, hnode⟩

end Aside

/-! ## Files that are taken away -/

/-- The files that the paths lead to are gone, and everything else is as it was. -/
structure Swept (paths : List CodeText) (tree later : FileTree) : Prop where
  alike : Alike tree later
  gone : ∀ path ∈ paths, ∀ l, FileAt tree path l → later.node? l = none
  kept : ∀ l, (∀ path ∈ paths, ¬ FileAt tree path l) → later.node? l = tree.node? l

section Swept

variable {tree middle later : FileTree} {path : CodeText} {paths : List CodeText}
  {location : Location}

theorem Swept.nil (tree : FileTree) : Swept [] tree tree where
  alike := .refl tree
  gone _ hpath := absurd hpath List.not_mem_nil
  kept _ _ := rfl

/-- A path that leads to no file leaves nothing to sweep. -/
theorem swept_of_forall_not (h : ∀ l, ¬ FileAt tree path l) : Swept [path] tree tree where
  alike := .refl tree
  gone other hother l hfile := by
    obtain rfl := List.mem_singleton.1 hother
    exact absurd hfile (h l)
  kept _ _ := rfl

theorem swept_erase (h : FileAt tree path location) : Swept [path] tree (tree.erase location) := by
  have hne : location ≠ [] := by
    obtain ⟨_, _, _, _, rfl, _⟩ := h
    exact List.append_ne_nil_of_right_ne_nil _ (List.cons_ne_nil _ _)
  constructor
  · obtain ⟨_, _, _, _, _, content, mode, hfile⟩ := h
    exact alike_of_other rfl (fixture?_of_file hfile) (fixture?_of_none (node?_erase_self hne))
      fun l hl => node?_erase_of_ne hl
  · intro other hother l hfile
    obtain rfl := List.mem_singleton.1 hother
    rw [h.unique hfile]
    exact node?_erase_self hne
  · intro l hnot
    refine node?_erase_of_ne ?_
    rintro rfl
    exact hnot path (List.mem_singleton_self _) h

/-- Sweeping goes on where it has come to. -/
theorem Swept.cons (h : Swept [path] tree middle) (h' : Swept paths middle later) :
    Swept (path :: paths) tree later := by
  have hstays : ∀ l, middle.node? l = none → later.node? l = none := by
    intro l hnone
    rw [h'.kept l ?_, hnone]
    rintro other - ⟨_, _, _, _, _, content, mode, hfile⟩
    rw [hnone] at hfile
    cases hfile
  constructor
  · exact h.alike.trans h'.alike
  · intro other hother l hfile
    by_cases hfirst : FileAt tree path l
    · exact hstays l (h.gone path (List.mem_singleton_self _) l hfirst)
    · have hsame : middle.node? l = tree.node? l := h.kept l fun p hp => by
        rwa [List.mem_singleton.1 hp]
      rcases List.mem_cons.1 hother with rfl | hrest
      · exact absurd hfile hfirst
      · exact h'.gone other hrest l (hfile.of_alike h.alike hsame)
  · intro l hnot
    have hsame : middle.node? l = tree.node? l := h.kept l fun p hp => by
      rw [List.mem_singleton.1 hp]
      exact hnot path List.mem_cons_self
    rw [h'.kept l, hsame]
    intro other hother hfile
    exact hnot other (List.mem_cons_of_mem _ hother) (hfile.of_alike h.alike.symm hsame.symm)

/-- What every path leaves aside is kept. -/
theorem Swept.node?_of_aside (h : Swept paths tree later)
    (haside : ∀ path ∈ paths, Aside tree location path) :
    later.node? location = tree.node? location :=
  h.kept location fun path hpath => (haside path hpath).not_fileAt

end Swept

/-! ## Names of files beside the ledger -/

section OwnFile

variable {tree later : FileTree} {path name own : CodeText} {directory : Location}

/-- The text names a file of its own in a directory: if a file can have it, it is the name of an entry,
not the given one, and no link. -/
def OwnFile (tree : FileTree) (directory : Location) (name own : CodeText) : Prop :=
  Path.fault? own = none →
    Path.IsName own ∧ own.known ≠ name ∧ tree.NoLinkAt (.entry directory own.known false)

theorem ownFile_ofString {other : String} (hname : Path.IsName other)
    (hne : CodeText.ofString other ≠ name)
    (hlink : tree.NoLinkAt (.entry directory other false)) : OwnFile tree directory name other := by
  intro hfault
  rw [CodeText.known_ofString]
  exact ⟨hname, hne, hlink⟩

theorem OwnFile.of_alike (h : OwnFile tree directory name own) (halike : Alike tree later) :
    OwnFile later directory name own := by
  intro hfault
  obtain ⟨hname, hne, hlink⟩ := h hfault
  exact ⟨hname, hne, noLinkAt_of_alike halike hlink⟩

/-- **A text that names a file of its own** leads beside the ledger, and through no link. -/
theorem OwnFile.aside (h : OwnFile tree directory name own)
    (hplace : tree.locate .replace path = .ok (.entry directory name false)) :
    Aside tree (directory ++ [name]) (Path.join (Path.directoryOf path) own) := by
  intro hfault above last slash hlast
  obtain ⟨hname, hne, hlink⟩ := h (Path.fault?_of_join hfault)
  rw [locate_beside hplace hname hlink] at hlast
  split at hlast
  · cases hlast
  · cases hlast
    refine ⟨fun heq => hne ?_, hlink⟩
    exact List.singleton_inj.1 (List.append_cancel_left heq)

/-- The file that such a text leads to is the one of its name in the directory. -/
theorem OwnFile.fileAt_iff (h : OwnFile tree directory name own) (hpath : Path.fault? path = none)
    (hplace : tree.locate .replace path = .ok (.entry directory name false)) {l : Location} :
    FileAt tree (Path.join (Path.directoryOf path) own) l ↔
      Path.fault? own = none ∧ l = directory ++ [own.known] ∧ ¬ TooLong path own ∧
        ∃ content mode, tree.node? l = some (.file content mode) := by
  constructor
  · rintro ⟨above, last, hfault, hlast, rfl, hfile⟩
    have hown := Path.fault?_of_join hfault
    obtain ⟨hname, -, hlink⟩ := h hown
    rw [locate_beside hplace hname hlink] at hlast
    split at hlast
    · cases hlast
    · rename_i hfits
      cases hlast
      exact ⟨hown, rfl, hfits, hfile⟩
  · rintro ⟨hown, rfl, hfits, hfile⟩
    obtain ⟨hname, -, hlink⟩ := h hown
    refine ⟨directory, own.known, (Path.fault?_beside_iff hpath own).2 hown, ?_, rfl, hfile⟩
    rw [locate_beside hplace hname hlink, if_neg hfits]

/-- **Writing a file of one's own** changes that file at most; if it is refused, nothing changes. -/
theorem cases_of_write (h : OwnFile tree directory name own) (hown : Path.fault? own = none)
    (hpath : Path.fault? path = none)
    (hplace : tree.locate .replace path = .ok (.entry directory name false)) (content : List UInt8) :
    (∃ later, tree.write (Path.join (Path.directoryOf path) own) content = .ok later ∧
        Alike tree later ∧ later.node? (directory ++ [name]) = tree.node? (directory ++ [name])) ∨
      ∃ refusal, tree.write (Path.join (Path.directoryOf path) own) content
        = .error (.refused refusal (Path.join (Path.directoryOf path) own)) := by
  obtain ⟨hname, hne, hlink⟩ := h hown
  have hother : directory ++ [name] ≠ directory ++ [own.known] := fun heq =>
    hne (List.singleton_inj.1 (List.append_cancel_left heq)).symm
  have hlocation : directory ++ [own.known] ≠ [] :=
    List.append_ne_nil_of_right_ne_nil _ (List.cons_ne_nil _ _)
  -- Where nothing or a file stands, there is a file afterwards.
  have hput : ∀ mode, tree.fixture? (directory ++ [own.known]) = none →
      Alike tree (tree.insert (directory ++ [own.known]) (.file content mode)) ∧
        (tree.insert (directory ++ [own.known]) (.file content mode)).node? (directory ++ [name])
          = tree.node? (directory ++ [name]) := fun mode hfixture =>
    ⟨alike_of_other rfl hfixture (fixture?_of_file (node?_insert_self hlocation))
      fun l hl => node?_insert_of_ne hl, node?_insert_of_ne hother⟩
  rw [write, onPath_of_none ((Path.fault?_beside_iff hpath own).2 hown),
    locate_beside hplace hname hlink]
  split
  · exact .inr ⟨.nameTooLong, rfl⟩
  show (∃ later, Except.mapError _ (tree.writeAt content (.entry directory own.known false)) = _ ∧ _) ∨
    ∃ refusal, Except.mapError _ (tree.writeAt content (.entry directory own.known false)) = _
  rw [writeAt]
  cases hnode : tree.node? (directory ++ [own.known]) with
  | none =>
    exact .inl ⟨tree.insert (directory ++ [own.known]) (.file content plainMode), rfl,
      hput plainMode (fixture?_of_none hnode)⟩
  | some node =>
    cases node with
    | file old mode =>
      exact .inl ⟨tree.insert (directory ++ [own.known]) (.file content mode), rfl,
        hput mode (fixture?_of_file hnode)⟩
    | directory => exact .inr ⟨.isADirectory, rfl⟩
    | link target => exact .inr ⟨.isADirectory, rfl⟩

end OwnFile

end FileTree

theorem InPlace.locate_replace {path name : CodeText} {directory : Location} {tree : FileTree}
    {state : Tracked} (h : InPlace path directory name tree state) :
    tree.locate .replace path = .ok (.entry directory name false) :=
  h.vacancy.locate_replace h.filled

namespace Provisioning

/-- The path of the credentials of an instance, beside the ledger file of a path. -/
def credentialsBeside (path machine : CodeText) : CodeText :=
  Path.join (Path.directoryOf path) machine

/-! ## Taking credentials away -/

section Drop

variable {σ : Type} {host : Host σ} {path : CodeText} {location : Location}

/-- Taking a file away never fails: a refusal is logged. -/
theorem exists_runOn_dropFile (host : Host σ) (haside : Aside host.files location path) :
    ∃ after, (dropFile path).runOn host = (.ok (), after) ∧ after.outside = host.outside ∧
      Swept [path] host.files after.files := by
  rw [dropFile, Job.runOn_bind_of_ok (Job.runOn_files host)]
  by_cases hpresent : host.files.present path = true
  · rw [if_pos hpresent, runOn_handling, Job.runOn_onFiles]
    rcases cases_of_remove haside (fault?_of_present hpresent) with
      ⟨l, hfile, hremove⟩ | ⟨hnot, refusal, hremove⟩
    · rw [Ledger.deleteFile, hremove]
      exact ⟨_, rfl, rfl, swept_erase hfile⟩
    · rw [Ledger.deleteFile, hremove]
      exact ⟨_, rfl, rfl, swept_of_forall_not hnot⟩
  · rw [if_neg hpresent]
    exact ⟨host, rfl, rfl, swept_of_forall_not fun l hfile => hpresent hfile.present⟩

/-- **Taking credentials away never fails**, and sweeps their files. -/
theorem swept_of_runOn_dropCredentials (run : Provisioning σ) (host : Host σ)
    {machines : List CodeText}
    (haside : ∀ machine ∈ machines,
      Aside host.files location (credentialsBeside run.ledgerPath machine)) :
    ∃ after, (machines.forM run.dropCredentials).runOn host = (.ok (), after) ∧
      after.outside = host.outside ∧
      Swept (machines.map (credentialsBeside run.ledgerPath)) host.files after.files := by
  induction machines generalizing host with
  | nil => exact ⟨host, rfl, rfl, .nil _⟩
  | cons machine machines ih =>
    obtain ⟨hmachine, hrest⟩ := List.forall_mem_cons.1 haside
    obtain ⟨middle, hdrop, houtside, hswept⟩ := exists_runOn_dropFile host hmachine
    obtain ⟨after, hforM, houtside', hswept'⟩ :=
      ih middle fun m hm => (hrest m hm).of_alike hswept.alike
    refine ⟨after, ?_, houtside'.trans houtside, hswept.cons hswept'⟩
    show (dropFile (credentialsBeside run.ledgerPath machine) >>= fun _ =>
      machines.forM run.dropCredentials).runOn host = _
    rw [Job.runOn_bind_of_ok hdrop, hforM]

end Drop

/-! ## Storing credentials -/

/-- **Storing credentials** leaves the ledger in its place, and it does not fail if the text of the
credentials is a string. -/
theorem exists_runOn_storeCredentials {σ : Type} (run : Provisioning σ) {host : Host σ}
    {name machine : CodeText} {directory : Location} {state : Tracked}
    (h : InPlace run.ledgerPath directory name host.files state)
    (hown : OwnFile host.files directory name machine) (hmachine : Path.fault? machine = none)
    {credentials : Credentials} {text : String} (htext : credentials.text.proper = .ok text) :
    ∃ after, (run.storeCredentials machine credentials).runOn host = (.ok (), after) ∧
      after.outside = host.outside ∧ Alike host.files after.files ∧
        InPlace run.ledgerPath directory name after.files state := by
  have hstring : credentials.text.string? = some text := by
    rw [CodeText.string?, htext]
    rfl
  rw [storeCredentials, runOn_handling, Job.runOn_onFiles, Ledger.writeFile, hstring, htext]
  rcases cases_of_write hown hmachine h.vacancy.noFault h.locate_replace (encode text.toList) with
    ⟨later, hwrite, halike, hnode⟩ | ⟨refusal, hwrite⟩
  · change host.files.write (run.credentialsPath machine) (encode text.toList) = _ at hwrite
    dsimp only [Option.elim_some]
    rw [hwrite]
    exact ⟨_, rfl, rfl, halike, h.elsewhere halike hnode⟩
  · change host.files.write (run.credentialsPath machine) (encode text.toList) = _ at hwrite
    dsimp only [Option.elim_some]
    rw [hwrite]
    exact ⟨_, rfl, rfl, .refl _, h⟩

end Provisioning

end NodeLedger
