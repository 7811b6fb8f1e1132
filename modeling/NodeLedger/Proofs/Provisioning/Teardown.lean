import NodeLedger.Proofs.Cloud.Deletions
import NodeLedger.Proofs.Cloud.Files
import NodeLedger.Proofs.Provisioning.Credentials

/-!
# Taking everything down

A teardown reads the ledger, terminates the instances, deletes the groups, and only then forgets what
went away and takes the credentials away. So either it comes to that point, and the ledger is brought
up to date as a whole, or an answer of the cloud ends it before, and no file has changed.

- `Platform.run`: a run against a cloud. `exchanges`: what its teardown exchanges with the cloud.
- `mirrors_teardown`: **the witness of the exchanges changes nothing**.
- `cases_of_runOn_deleteGroups`: the groups that went away, each by its own exchanges.
- `Accounted`: what a teardown that comes to its end has done, told by the exchanges.
- `cases_of_runOn_teardown`: **a teardown accounts for everything, or changes no file**.
-/

namespace NodeLedger.Provisioning

open Cloud FileTree Policy

/-! ## Runs against a cloud -/

section Run

variable {σ : Type}

/-- A run against a cloud with the ledger file of a path. -/
def onPlatform (platform : Platform σ) (path : CodeText) (ownAddress : Job σ String) :
    Provisioning σ :=
  ⟨platform.provider, path, ownAddress⟩

theorem mirrors_deleteGroup (platform : Platform σ) (path : CodeText) (own : Job (Watched σ) String)
    (own' : Job σ String) (group : CodeText) :
    Job.Mirrors ((onPlatform platform.watched path own).deleteGroup group)
      ((onPlatform platform path own').deleteGroup group) :=
  Job.mirrors_handling
    (Job.mirrors_bind (mirrors_delete platform (some group)) fun _ => Job.mirrors_pure _)
    fun _ => Job.mirrors_bind (Job.mirrors_log _ _) fun _ => Job.mirrors_pure _

theorem mirrors_deleteGroups (platform : Platform σ) (path : CodeText) (own : Job (Watched σ) String)
    (own' : Job σ String) (groups : List CodeText) :
    Job.Mirrors ((onPlatform platform.watched path own).deleteGroups groups)
      ((onPlatform platform path own').deleteGroups groups) := by
  induction groups with
  | nil => exact Job.mirrors_pure _
  | cons group groups ih =>
    refine Job.mirrors_bind (mirrors_deleteGroup platform path own own' group) fun deleted => ?_
    exact Job.mirrors_bind ih fun _ => Job.mirrors_pure _

theorem mirrors_forget [Json.Nesting] (platform : Platform σ) (path : CodeText)
    (own : Job (Watched σ) String) (own' : Job σ String) (machines groups : List CodeText) :
    Job.Mirrors ((onPlatform platform.watched path own).forget machines groups)
      ((onPlatform platform path own').forget machines groups) := by
  refine Job.mirrors_handling ?_ fun _ => Job.mirrors_log _ _
  refine Job.mirrors_bind Job.mirrors_files fun tree => ?_
  refine Job.mirrors_bind (Job.mirrors_ofExcept _) fun old => ?_
  refine Job.mirrors_bind (Job.mirrors_ofExcept _) fun new => ?_
  refine Job.mirrors_ite ?_ (Job.mirrors_onFiles _)
  exact Job.mirrors_bind (Job.mirrors_onFiles _) fun _ => Job.mirrors_log _ _

theorem mirrors_dropFile (path : CodeText) :
    Job.Mirrors (dropFile path : Job (Watched σ) Unit) (dropFile path) := by
  rw [dropFile, dropFile]
  refine Job.mirrors_bind Job.mirrors_files fun tree => ?_
  refine Job.mirrors_ite ?_ (Job.mirrors_pure _)
  exact Job.mirrors_handling (Job.mirrors_onFiles _) fun _ => Job.mirrors_log _ _

/-- **The witness of the exchanges changes nothing.** -/
theorem mirrors_teardown [Json.Nesting] (platform : Platform σ) (path : CodeText)
    (own : Job (Watched σ) String) (own' : Job σ String) :
    Job.Mirrors (onPlatform platform.watched path own).teardown
      (onPlatform platform path own').teardown := by
  refine Job.mirrors_bind (Job.mirrors_log _ _) fun _ => ?_
  refine Job.mirrors_bind Job.mirrors_files fun tree => ?_
  refine Job.mirrors_bind (Job.mirrors_ofExcept _) fun ledger => ?_
  refine Job.mirrors_bind ?_ fun terminated => ?_
  · exact Job.mirrors_ite (Job.mirrors_pure _) (mirrors_terminate platform ledger.instances)
  refine Job.mirrors_bind (mirrors_deleteGroups platform path own own' ledger.groups) fun groups => ?_
  refine Job.mirrors_bind (mirrors_forget platform path own own' terminated groups.1) fun _ => ?_
  refine Job.mirrors_bind (Job.mirrors_forM (fun machine => ?_) terminated) fun _ => ?_
  · exact mirrors_dropFile _
  · exact Job.mirrors_pure _

end Run

/-! ## Groups -/

section Groups

variable {σ : Type} {platform : Platform σ} {path : CodeText} {own : Job (Watched σ) String}
  {group : CodeText} {groups : List CodeText} {host after : Host (Watched σ)}

theorem cases_of_runOn_deleteGroup {outcome : Except Fault Bool}
    (h : ((onPlatform platform.watched path own).deleteGroup group).runOn host = (outcome, after)) :
    ∃ new, after.outside.seen = host.outside.seen ++ new ∧ Attempt platform group new ∧
      (outcome = .ok (decide (platform.GroupGone new group)) ∨
        (∃ fault, outcome = .error fault) ∧ ∃ e ∈ new, e.isHandled = false) := by
  rw [deleteGroup, runOn_handling] at h
  cases hdelete : ((onPlatform platform.watched path own).provider.delete (some group)).runOn host with
  | mk result middle =>
    obtain ⟨new, hseen, hattempt, hend⟩ := cases_of_runOn_delete platform hdelete
    rcases hend with ⟨rfl, hgone⟩ | ⟨fault, rfl, hleft, hreason⟩
    · rw [Job.runOn_bind_of_ok hdelete] at h
      cases h
      exact ⟨new, hseen, hattempt, .inl (congrArg Except.ok (decide_eq_true hgone).symm)⟩
    · rw [Job.runOn_bind_of_error hdelete] at h
      dsimp only at h
      split at h
      · cases h
        exact ⟨new, hseen, hattempt, .inl (congrArg Except.ok (decide_eq_false hleft).symm)⟩
      · rename_i hother
        cases h
        exact ⟨new, hseen, hattempt, .inr ⟨⟨fault, rfl⟩, hreason.resolve_left hother⟩⟩

theorem exists_cons_own (first : List Exchange) (own : CodeText → List Exchange)
    (hgroup : group ∉ groups) :
    ∃ all : CodeText → List Exchange, all group = first ∧ ∀ g ∈ groups, all g = own g := by
  refine ⟨fun g => if g = group then first else own g, if_pos rfl, fun g hg => if_neg ?_⟩
  rintro rfl
  exact hgroup hg

/-- **The groups that went away are told by the exchanges about each of them.** -/
theorem cases_of_runOn_deleteGroups (hnodup : groups.Nodup)
    {outcome : Except Fault (List CodeText × List CodeText)}
    (h : ((onPlatform platform.watched path own).deleteGroups groups).runOn host
      = (outcome, after)) :
    ∃ new, after.outside.seen = host.outside.seen ++ new ∧
      ((∃ own : CodeText → List Exchange, new = groups.flatMap own ∧
          (∀ g ∈ groups, Attempt platform g (own g)) ∧
          outcome = .ok (groups.filter fun g => platform.GroupGone (own g) g,
            groups.filter fun g => ¬ platform.GroupGone (own g) g)) ∨
        (∃ fault, outcome = .error fault) ∧ ∃ e ∈ new, e.isHandled = false) := by
  induction groups generalizing host outcome with
  | nil =>
    cases h
    exact ⟨[], (List.append_nil _).symm, .inl ⟨fun _ => [], rfl, List.forall_mem_nil _, rfl⟩⟩
  | cons group groups ih =>
    obtain ⟨hgroup, hgroups⟩ := List.nodup_cons.1 hnodup
    rcases Job.cases_of_runOn_bind h with ⟨fault, hdelete, rfl⟩ | ⟨deleted, middle, hdelete, h⟩
    · obtain ⟨new, hseen, -, hok | ⟨-, hunhandled⟩⟩ := cases_of_runOn_deleteGroup hdelete
      · cases hok
      · exact ⟨new, hseen, .inr ⟨⟨fault, rfl⟩, hunhandled⟩⟩
    obtain ⟨first, hseen, hattempt, hok | ⟨⟨fault, hfault⟩, -⟩⟩ := cases_of_runOn_deleteGroup hdelete
    · cases hok
      rcases Job.cases_of_runOn_bind h with ⟨fault, hrest, rfl⟩ | ⟨⟨gone, left⟩, last, hrest, h⟩
      · obtain ⟨new, hseen', ⟨_, -, -, hok⟩ | ⟨-, e, he, hunhandled⟩⟩ := ih hgroups hrest
        · cases hok
        · exact ⟨first ++ new, by rw [hseen', hseen, List.append_assoc],
            .inr ⟨⟨fault, rfl⟩, e, List.mem_append_right _ he, hunhandled⟩⟩
      cases h
      obtain ⟨new, hseen', ⟨own, rfl, hattempts, hok⟩ | ⟨⟨fault, hfault⟩, -⟩⟩ := ih hgroups hrest
      · cases hok
        -- The exchanges about the first group are put before those about the other ones.
        obtain ⟨all, hself, hown⟩ := exists_cons_own first own hgroup
        have hfilter : ∀ P : List Exchange → CodeText → Bool,
            (groups.filter fun g => P (all g) g) = groups.filter fun g => P (own g) g := fun P =>
          List.filter_congr fun g hg => by rw [hown g hg]
        refine ⟨first ++ groups.flatMap own, by rw [hseen', hseen, List.append_assoc],
          .inl ⟨all, ?_, ?_, ?_⟩⟩
        · rw [List.flatMap_cons, hself, List.flatMap_congr hown]
        · refine List.forall_mem_cons.2 ⟨?_, fun g hg => ?_⟩
          · rw [hself]
            exact hattempt
          · rw [hown g hg]
            exact hattempts g hg
        · rw [List.filter_cons, List.filter_cons, hself,
            hfilter fun seen g => decide (platform.GroupGone seen g),
            hfilter fun seen g => decide (¬ platform.GroupGone seen g)]
          by_cases hgone : platform.GroupGone first group
          · simp [hgone]
          · simp [hgone]
      · cases hfault
    · cases hfault

end Groups

/-! ## The whole teardown -/

/-- The files after the instances of one property and the groups of another one went away: the ledger
keeps the others, the credentials of the instances are gone, and every other file is as it was. -/
structure Settled (path : CodeText) (directory : Location) (name : CodeText) (I G : Finset CodeText)
    (P Q : CodeText → Prop) [DecidablePred P] [DecidablePred Q] (before after : FileTree) : Prop where
  ledger : InPlace path directory name after
    (.remaining (I.filter fun i => ¬ P i) (G.filter fun g => ¬ Q g))
  alike : Alike before after
  gone : ∀ i ∈ I, P i → ∀ l, FileAt before (credentialsBeside path i) l → after.node? l = none
  kept : ∀ l, l ≠ directory ++ [name] →
    (∀ i ∈ I, P i → ¬ FileAt before (credentialsBeside path i) l) → after.node? l = before.node? l

/-- What a teardown that comes to its end has done with the instances and groups of a ledger, told by
what was exchanged. The instances and groups that went away are reported in the order of the ledger,
all others are reported as failed, and each was tried; the files are settled accordingly. -/
structure Accounted {σ : Type} (platform : Platform σ) (path : CodeText) (directory : Location)
    (name : CodeText) (I G : Finset CodeText) (seen : List Exchange) (before after : FileTree)
    (result : Teardown) : Prop where
  terminated : result.terminated = (Ledger.ascending I).filter fun i => platform.InstanceGone seen i
  deletedGroups : result.deletedGroups =
    (Ledger.ascending G).filter fun g => platform.GroupGone seen g
  failed : result.failed =
    ((Ledger.ascending I).filter fun i => ¬ platform.InstanceGone seen i) ++
      (Ledger.ascending G).filter fun g => ¬ platform.GroupGone seen g
  instancesTried : ∀ i ∈ I, platform.InstanceTried seen i
  groupsTried : ∀ g ∈ G, platform.GroupTried seen g ∧
    (platform.GroupGone seen g ↔ ¬ platform.GroupRefused seen g)
  settled : Settled path directory name I G (platform.InstanceGone seen) (platform.GroupGone seen)
    before after

section Teardown

variable {σ : Type} {platform : Platform σ} {path name : CodeText} {own : Job (Watched σ) String}
  {directory : Location} {I G : Finset CodeText} {P Q : CodeText → Prop} [DecidablePred P]
  [DecidablePred Q] {host after : Host (Watched σ)}

theorem keepsFiles_provider (platform : Platform σ) : platform.provider.KeepsFiles := by
  cases platform with
  | ec2 client network => exact Ec2.keepsFiles_provider client network
  | azure client resources location => exact Nsg.keepsFiles_provider client resources location

theorem keepsFiles_terminate (platform : Platform σ) (path : CodeText) (own : Job σ String)
    (machines : List CodeText) : ((onPlatform platform path own).terminate machines).Keeps (·.files) :=
  Job.keeps_ite (Job.keeps_pure _) ((keepsFiles_provider platform).terminate machines)

theorem keepsFiles_deleteGroups (platform : Platform σ) (path : CodeText) (own : Job σ String)
    (groups : List CodeText) :
    ((onPlatform platform path own).deleteGroups groups).Keeps (·.files) := by
  induction groups with
  | nil => exact Job.keeps_pure _
  | cons group groups ih =>
    refine Job.keeps_bind (Job.keeps_handling ?_ fun _ => ?_) fun _ =>
      Job.keeps_bind ih fun _ => Job.keeps_pure _
    · exact Job.keeps_bind ((keepsFiles_provider platform).delete (some group)) fun _ =>
        Job.keeps_pure _
    · exact Job.keeps_bind (Job.keepsFiles_log _ _) fun _ => Job.keeps_pure _

theorem keepsOutside_dropFile {σ : Type} (path : CodeText) :
    (dropFile path : Job σ Unit).Keeps (·.outside) := by
  rw [dropFile]
  refine Job.keeps_bind Job.keeps_files fun tree => Job.keeps_ite ?_ (Job.keeps_pure _)
  exact Job.keeps_handling (Job.keepsOutside_onFiles _) fun _ => Job.keepsOutside_log _ _

theorem keepsOutside_forget [Json.Nesting] (run : Provisioning σ)
    (machines groups : List CodeText) :
    (run.forget machines groups).Keeps (·.outside) := by
  refine Job.keeps_handling ?_ fun _ => Job.keepsOutside_log _ _
  refine Job.keeps_bind Job.keeps_files fun tree => ?_
  refine Job.keeps_bind (Job.keeps_ofExcept _) fun old => ?_
  refine Job.keeps_bind (Job.keeps_ofExcept _) fun new => ?_
  refine Job.keeps_ite ?_ (Job.keepsOutside_onFiles _)
  exact Job.keeps_bind (Job.keepsOutside_onFiles _) fun _ => Job.keepsOutside_log _ _

/-- What the deletions and the terminations maintain, a teardown does. -/
theorem maintains_teardown [Json.Nesting] {σ : Type} {inv : σ → Prop} (run : Provisioning σ)
    (hdelete : ∀ group, (run.provider.delete (some group)).Maintains inv)
    (hterminate : ∀ machines, (run.provider.terminate machines).Maintains inv) :
    run.teardown.Maintains inv := by
  have hgroups : ∀ groups, (run.deleteGroups groups).Maintains inv := by
    intro groups
    induction groups with
    | nil => exact (Job.keeps_pure _).maintains
    | cons group groups ih =>
      refine Job.maintains_bind (Job.maintains_handling ?_ fun _ => ?_) fun _ =>
        Job.maintains_bind ih fun _ => (Job.keeps_pure _).maintains
      · exact Job.maintains_bind (hdelete group) fun _ => (Job.keeps_pure _).maintains
      · exact (Job.keeps_bind (Job.keepsOutside_log _ _) fun _ => Job.keeps_pure _).maintains
  have hsettle : ∀ machines groups (result : Teardown), (do
      run.forget machines groups
      machines.forM run.dropCredentials
      return result : Job σ Teardown).Keeps (·.outside) := fun machines groups result =>
    Job.keeps_bind (keepsOutside_forget run machines groups) fun _ =>
      Job.keeps_bind (Job.keeps_forM (fun _ => keepsOutside_dropFile _) machines) fun _ =>
        Job.keeps_pure _
  refine Job.maintains_bind (Job.keepsOutside_log _ _).maintains fun _ => ?_
  refine Job.maintains_bind Job.keeps_files.maintains fun tree => ?_
  refine Job.maintains_bind (Job.keeps_ofExcept _).maintains fun ledger => ?_
  refine Job.maintains_bind ?_ fun machines => Job.maintains_bind (hgroups _) fun _ =>
    (hsettle machines _ _).maintains
  exact Job.maintains_ite (Job.keeps_pure _).maintains (hterminate _)

/-- Nothing is exchanged for no instances, and that is as it should be. -/
theorem cases_of_runOn_terminate_ascending
    {outcome : Except Fault (List CodeText)}
    (h : ((onPlatform platform.watched path own).terminate (Ledger.ascending I)).runOn host
      = (outcome, after)) :
    ∃ new, after.outside.seen = host.outside.seen ++ new ∧ (∀ e ∈ new, e.group? = none) ∧
      ((outcome = .ok ((Ledger.ascending I).filter fun i => platform.InstanceGone new i) ∧
          ∀ i ∈ I, platform.InstanceTried new i) ∨
        (∃ fault, outcome = .error fault) ∧ ∃ e ∈ new, e.isHandled = false) := by
  rw [terminate] at h
  split at h
  · rename_i hempty
    cases h
    rw [List.isEmpty_iff] at hempty
    refine ⟨[], (List.append_nil _).symm, List.forall_mem_nil _, .inl ⟨?_, fun i hi => ?_⟩⟩
    · rw [hempty]
      rfl
    · rw [← Ledger.mem_ascending, hempty] at hi
      exact absurd hi List.not_mem_nil
  · obtain ⟨new, hseen, hgroup, hend⟩ :=
      cases_of_runOn_terminate platform (Ledger.nodup_ascending I) h
    refine ⟨new, hseen, hgroup, hend.imp_left fun hok => ⟨hok.1, fun i hi => ?_⟩⟩
    exact hok.2 i (Ledger.mem_ascending.2 hi)

/-! ## Files -/

/-- **The ledger forgets exactly what went away**, and nothing else changes. -/
theorem exists_runOn_forget [Json.Nesting] {σ : Type} (run : Provisioning σ) {host : Host σ}
    (h : InPlace run.ledgerPath directory name host.files (.present I G)) :
    ∃ after, (run.forget ((Ledger.ascending I).filter fun i => P i)
        ((Ledger.ascending G).filter fun g => Q g)).runOn host = (.ok (), after) ∧
      after.outside = host.outside ∧
      InPlace run.ledgerPath directory name after.files
        (.remaining (I.filter fun i => ¬ P i) (G.filter fun g => ¬ Q g)) ∧
      SameBut (directory ++ [name]) host.files after.files := by
  have hmem : ∀ {S : Finset CodeText} {R : CodeText → Prop} [DecidablePred R],
      ∀ e ∈ (Ledger.ascending S).filter fun e => R e, e ∈ S := fun e he =>
    Ledger.mem_ascending.1 (List.mem_of_mem_filter he)
  have hrest : ∀ (S : Finset CodeText) (R : CodeText → Prop) [DecidablePred R],
      S \ ((Ledger.ascending S).filter fun e => R e).toFinset = S.filter fun e => ¬ R e := by
    intro S R _
    ext e
    simp only [Finset.mem_sdiff, List.mem_toFinset, List.mem_filter, Ledger.mem_ascending,
      Finset.mem_filter, decide_eq_true_eq]
    exact and_congr_right fun he => not_congr (and_iff_right he)
  obtain ⟨hok, hplace, hsame⟩ := h.remove ((Ledger.nodup_ascending I).filter fun i => P i) hmem
    ((Ledger.nodup_ascending G).filter fun g => Q g) hmem
  rw [hrest, hrest] at hplace
  cases hremove : (Ledger.remove ((Ledger.ascending I).filter fun i => P i)
      ((Ledger.ascending G).filter fun g => Q g) run.ledgerPath).runOn host with
  | mk outcome after =>
    rw [hremove] at hok hplace hsame
    cases hok
    have hforget : (run.forget ((Ledger.ascending I).filter fun i => P i)
        ((Ledger.ascending G).filter fun g => Q g)).runOn host = (.ok (), after) := by
      rw [forget, runOn_handling, hremove]
    exact ⟨after, hforget, (keepsOutside_forget run _ _).eq hforget, hplace, hsame⟩

/-- **The files are settled**: the ledger forgets what went away, and the credentials of the instances
among it are taken away. -/
theorem exists_runOn_settle [Json.Nesting] {σ : Type} (run : Provisioning σ) {host : Host σ}
    (h : InPlace run.ledgerPath directory name host.files (.present I G))
    (haside : ∀ i ∈ I, Aside host.files (directory ++ [name]) (credentialsBeside run.ledgerPath i))
    (P Q : CodeText → Prop) [DecidablePred P] [DecidablePred Q] (result : Teardown) :
    let machines := (Ledger.ascending I).filter fun i => P i
    ∃ after, (do
          run.forget machines ((Ledger.ascending G).filter fun g => Q g)
          machines.forM run.dropCredentials
          return result : Job σ Teardown).runOn host = (.ok result, after) ∧
      after.outside = host.outside ∧
        Settled run.ledgerPath directory name I G P Q host.files after.files := by
  intro machines
  have hmem : ∀ i, i ∈ machines ↔ i ∈ I ∧ P i := fun i => by
    rw [List.mem_filter, Ledger.mem_ascending, decide_eq_true_eq]
  obtain ⟨middle, hforget, houtside, hplace, hsame⟩ := exists_runOn_forget (P := P) (Q := Q) run h
  have hmiddle : ∀ i ∈ machines,
      Aside middle.files (directory ++ [name]) (credentialsBeside run.ledgerPath i) := fun i hi =>
    (haside i ((hmem i).1 hi).1).of_alike hsame.alike
  obtain ⟨after, hdrop, houtside', hswept⟩ := swept_of_runOn_dropCredentials run middle hmiddle
  have hledger : after.files.node? (directory ++ [name]) = middle.files.node? (directory ++ [name]) := by
    refine hswept.node?_of_aside fun p hp => ?_
    obtain ⟨i, hi, rfl⟩ := List.mem_map.1 hp
    exact hmiddle i hi
  refine ⟨after, ?_, houtside'.trans houtside, ?_⟩
  · rw [Job.runOn_bind_of_ok hforget, Job.runOn_bind_of_ok hdrop, Job.runOn_pure]
  constructor
  case ledger => exact hplace.elsewhere hswept.alike hledger
  case alike => exact hsame.alike.trans hswept.alike
  case gone =>
    intro i hi hgone l hfile
    have hl : l ≠ directory ++ [name] := by
      rintro rfl
      exact (haside i hi).not_fileAt hfile
    exact hswept.gone _ (List.mem_map_of_mem ((hmem i).2 ⟨hi, hgone⟩)) l
      (hfile.of_alike hsame.alike (hsame.other l hl))
  case kept =>
    intro l hl hnot
    rw [hswept.kept l ?_, hsame.other l hl]
    intro p hp hfile
    obtain ⟨i, hi, rfl⟩ := List.mem_map.1 hp
    obtain ⟨hi, hgone⟩ := (hmem i).1 hi
    exact hnot i hi hgone (hfile.of_alike hsame.alike.symm (hsame.other l hl).symm)

/-- Only the instances and groups of the ledger matter for what is settled. -/
theorem Settled.congr {P' Q' : CodeText → Prop} [DecidablePred P'] [DecidablePred Q']
    {before after : FileTree} (h : Settled path directory name I G P Q before after)
    (hP : ∀ i ∈ I, P i ↔ P' i) (hQ : ∀ g ∈ G, Q g ↔ Q' g) :
    Settled path directory name I G P' Q' before after where
  ledger := by
    rw [← Finset.filter_congr fun i hi => not_congr (hP i hi),
      ← Finset.filter_congr fun g hg => not_congr (hQ g hg)]
    exact h.ledger
  alike := h.alike
  gone i hi hgone := h.gone i hi ((hP i hi).2 hgone)
  kept l hl hnot := h.kept l hl fun i hi hgone => hnot i hi ((hP i hi).1 hgone)

/-- Nothing has failed if nothing remains. -/
theorem Accounted.failed_eq_nil_iff {seen : List Exchange} {before after : FileTree} {result : Teardown}
    (h : Accounted platform path directory name I G seen before after result) :
    result.failed = [] ↔ (I.filter fun i => ¬ platform.InstanceGone seen i) = ∅ ∧
      (G.filter fun g => ¬ platform.GroupGone seen g) = ∅ := by
  rw [h.failed, List.append_eq_nil_iff, ← Ledger.ascending_filter, ← Ledger.ascending_filter,
    ← List.isEmpty_iff, ← List.isEmpty_iff, Ledger.ascending_isEmpty_iff,
    Ledger.ascending_isEmpty_iff]

/-! ## Exchanges -/

/-- What is exchanged about instances and about groups does not get mixed up. -/
theorem mem_append_iff_of_group?_eq_none {machines groups : List Exchange}
    (hgroups : ∀ e ∈ groups, e.group? ≠ none) {e : Exchange} (he : e.group? = none) :
    e ∈ machines ++ groups ↔ e ∈ machines := by
  rw [List.mem_append, or_iff_left]
  exact fun hmem => hgroups e hmem he

theorem mem_append_flatMap_iff {machines : List Exchange} {groups : List CodeText}
    {seen : CodeText → List Exchange} (hmachines : ∀ e ∈ machines, e.group? = none)
    (hseen : ∀ g ∈ groups, ∀ e ∈ seen g, e.group? = some (some g)) {group : CodeText}
    (hgroup : group ∈ groups) {e : Exchange} (he : e.group? = some (some group)) :
    e ∈ machines ++ groups.flatMap seen ↔ e ∈ seen group := by
  rw [List.mem_append, or_iff_right, List.mem_flatMap]
  · constructor
    · rintro ⟨g, hg, hmem⟩
      obtain rfl : group = g := by
        have heq := he.symm.trans (hseen g hg e hmem)
        exact Option.some.inj (Option.some.inj heq)
      exact hmem
    · exact fun hmem => ⟨group, hgroup, hmem⟩
  · intro hmem
    rw [hmachines e hmem] at he
    cases he

/-- The items outside a selection are those that were not selected. -/
theorem filter_not_contains (items : List CodeText) (P : CodeText → Bool) :
    (items.filter fun item => !(items.filter P).contains item) = items.filter fun item => !P item := by
  refine List.filter_congr fun item hitem => congrArg _ ?_
  rw [Bool.eq_iff_iff, List.contains_iff_mem, List.mem_filter, and_iff_right hitem]

/-- What the exchanges about the instances and those about each of the groups tell, all of them tell
together. -/
theorem accounted_append {asked : List Exchange} {seen : CodeText → List Exchange}
    {before after : FileTree} (hasked : ∀ e ∈ asked, e.group? = none)
    (htried : ∀ i ∈ I, platform.InstanceTried asked i)
    (hattempts : ∀ g ∈ G, Attempt platform g (seen g))
    (hsettled : Settled path directory name I G (platform.InstanceGone asked)
      (fun g => platform.GroupGone (seen g) g) before after) :
    Accounted platform path directory name I G (asked ++ (Ledger.ascending G).flatMap seen) before after
      { terminated := (Ledger.ascending I).filter fun i => platform.InstanceGone asked i
        deletedGroups := (Ledger.ascending G).filter fun g => platform.GroupGone (seen g) g
        failed := ((Ledger.ascending I).filter fun i => ¬ platform.InstanceGone asked i) ++
          (Ledger.ascending G).filter fun g => ¬ platform.GroupGone (seen g) g } := by
  have habout : ∀ g ∈ Ledger.ascending G, ∀ e ∈ seen g, e.group? = some (some g) := fun g hg =>
    (hattempts g (Ledger.mem_ascending.1 hg)).about
  have hgroups : ∀ e ∈ (Ledger.ascending G).flatMap seen, e.group? ≠ none := by
    intro e he hnone
    obtain ⟨g, hg, hmem⟩ := List.mem_flatMap.1 he
    cases hnone.symm.trans (habout g hg e hmem)
  generalize hall : asked ++ (Ledger.ascending G).flatMap seen = all
  have hinstances : ∀ e, e.group? = none → (e ∈ all ↔ e ∈ asked) := fun e he => by
    rw [← hall, mem_append_iff_of_group?_eq_none hgroups he]
  have hgroup : ∀ g ∈ G, ∀ e, e.group? = some (some g) → (e ∈ all ↔ e ∈ seen g) := fun g hg e he => by
    rw [← hall, mem_append_flatMap_iff hasked habout (Ledger.mem_ascending.2 hg) he]
  have hinstanceGone : ∀ i, platform.InstanceGone asked i ↔ platform.InstanceGone all i := fun i =>
    (Platform.instanceGone_congr hinstances).symm
  have hgroupGone : ∀ g ∈ G, (platform.GroupGone (seen g) g ↔ platform.GroupGone all g) := fun g hg =>
    (Platform.groupGone_congr (hgroup g hg)).symm
  constructor
  case terminated => exact List.filter_congr fun i _ => decide_eq_decide.2 (hinstanceGone i)
  case deletedGroups =>
    exact List.filter_congr fun g hg => decide_eq_decide.2 (hgroupGone g (Ledger.mem_ascending.1 hg))
  case failed =>
    refine congrArg₂ _ (List.filter_congr fun i _ => ?_) (List.filter_congr fun g hg => ?_)
    · exact decide_eq_decide.2 (not_congr (hinstanceGone i))
    · exact decide_eq_decide.2 (not_congr (hgroupGone g (Ledger.mem_ascending.1 hg)))
  case instancesTried => exact fun i hi => (Platform.instanceTried_congr hinstances).2 (htried i hi)
  case groupsTried => exact fun g hg => (hattempts g hg).congr (hgroup g hg)
  case settled => exact hsettled.congr (fun i _ => hinstanceGone i) hgroupGone

/-! ## The run -/

/-- **A teardown accounts for everything, or changes no file**, where its exchanges are witnessed. -/
theorem cases_of_runOn_watched_teardown [Json.Nesting] {outcome : Except Fault Teardown}
    (h : InPlace path directory name host.files (.present I G))
    (haside : ∀ i ∈ I, Aside host.files (directory ++ [name]) (credentialsBeside path i))
    (hrun : (onPlatform platform.watched path own).teardown.runOn host = (outcome, after)) :
    ∃ new, after.outside.seen = host.outside.seen ++ new ∧
      ((∃ result, outcome = .ok result ∧
          Accounted platform path directory name I G new host.files after.files result) ∨
        (∃ fault, outcome = .error fault) ∧ after.files = host.files ∧
          ∃ e ∈ new, e.isHandled = false) := by
  -- The message at the beginning leaves the files and the witness alone.
  obtain ⟨start, hstart, hfiles, houtside⟩ : ∃ start : Host (Watched σ),
      (Job.log .info ("Processing file '" ++ path ++ "'") : Job (Watched σ) Unit).runOn host
          = (.ok (), start) ∧
        start.files = host.files ∧ start.outside = host.outside := ⟨_, Job.runOn_log _ _ _, rfl, rfl⟩
  rw [← hfiles] at h haside ⊢
  rw [← houtside]
  rw [teardown] at hrun
  replace hrun := (Job.runOn_bind_of_ok hstart _).symm.trans hrun
  rw [Job.runOn_bind_of_ok (Job.runOn_files _)] at hrun
  change (Job.ofExcept (Ledger.load start.files path) >>= _).runOn _ = _ at hrun
  rw [h.load_present, Job.runOn_bind_of_ok (Job.runOn_ofExcept _ _)] at hrun
  change (terminate _ (Ledger.ascending I) >>= _).runOn _ = _ at hrun
  rcases Job.cases_of_runOn_bind hrun with ⟨fault, hterminate, rfl⟩ | ⟨machines, last, hterminate, hrun⟩
  · obtain ⟨new, hseen, -, ⟨hok, -⟩ | ⟨-, hunhandled⟩⟩ := cases_of_runOn_terminate_ascending hterminate
    · cases hok
    · exact ⟨new, hseen, .inr ⟨⟨fault, rfl⟩,
        (keepsFiles_terminate platform.watched path own _).eq hterminate, hunhandled⟩⟩
  obtain ⟨asked, hseenAsked, hasked, ⟨hok, htried⟩ | ⟨⟨fault, hfault⟩, -⟩⟩ :=
    cases_of_runOn_terminate_ascending hterminate
  swap
  · cases hfault
  cases hok
  have hfilesAsked := (keepsFiles_terminate platform.watched path own _).eq hterminate
  change (deleteGroups _ (Ledger.ascending G) >>= _).runOn _ = _ at hrun
  rcases Job.cases_of_runOn_bind hrun with ⟨fault, hdelete, rfl⟩ | ⟨⟨gone, left⟩, next, hdelete, hrun⟩
  · obtain ⟨new, hseen, ⟨_, -, -, hok⟩ | ⟨-, e, he, hunhandled⟩⟩ :=
      cases_of_runOn_deleteGroups (Ledger.nodup_ascending G) hdelete
    · cases hok
    · exact ⟨asked ++ new, by rw [hseen, hseenAsked, List.append_assoc], .inr ⟨⟨fault, rfl⟩,
        ((keepsFiles_deleteGroups platform.watched path own _).eq hdelete).trans hfilesAsked,
        e, List.mem_append_right _ he, hunhandled⟩⟩
  obtain ⟨new, hseen, ⟨seen, rfl, hattempts, hok⟩ | ⟨⟨fault, hfault⟩, -⟩⟩ :=
    cases_of_runOn_deleteGroups (Ledger.nodup_ascending G) hdelete
  swap
  · cases hfault
  cases hok
  have hfilesNext : next.files = start.files :=
    ((keepsFiles_deleteGroups platform.watched path own _).eq hdelete).trans hfilesAsked
  rw [← hfilesNext] at h haside ⊢
  obtain ⟨last, hsettle, houtsideLast, hsettled⟩ :=
    exists_runOn_settle (onPlatform platform.watched path own) h haside
      (platform.InstanceGone asked) (fun g => platform.GroupGone (seen g) g) _
  cases hsettle.symm.trans hrun
  refine ⟨asked ++ (Ledger.ascending G).flatMap seen, ?_, .inl ⟨_, rfl, ?_⟩⟩
  · rw [houtsideLast, hseen, hseenAsked, List.append_assoc]
  · have hfailed : ((Ledger.ofSets I G).instances.filter fun machine =>
        !((Ledger.ascending I).filter fun i => platform.InstanceGone asked i).contains machine)
        = (Ledger.ascending I).filter fun i => ¬ platform.InstanceGone asked i :=
      (filter_not_contains (Ledger.ascending I) fun i => platform.InstanceGone asked i).trans
        (List.filter_congr fun i _ => decide_not.symm)
    rw [hfailed]
    exact accounted_append hasked htried (fun g hg => hattempts g (Ledger.mem_ascending.2 hg)) hsettled

end Teardown

section Run

variable [Json.Nesting] {σ : Type} {platform : Platform σ} {path name : CodeText}
  {own : Job σ String} {directory : Location} {I G : Finset CodeText} {host after : Host σ}

/-- What a teardown exchanges with the cloud. -/
def exchanges (platform : Platform σ) (path : CodeText) (host : Host σ) : List Exchange :=
  ((onPlatform platform.watched path (pure "")).teardown.runOn host.watched).2.outside.seen

/-- The run beside a witness, for a run without one. -/
theorem exists_runOn_watched_teardown {outcome : Except Fault Teardown}
    (h : (onPlatform platform path own).teardown.runOn host = (outcome, after)) :
    ∃ watched, (onPlatform platform.watched path (pure "")).teardown.runOn host.watched
        = (outcome, watched) ∧ watched.files = after.files ∧
      watched.outside = ⟨after.outside, exchanges platform path host⟩ := by
  have hmirrors := mirrors_teardown platform path (pure "") own host.watched
  change _ = (onPlatform platform path own).teardown.runOn host at hmirrors
  rw [h] at hmirrors
  obtain ⟨houtcome, hafter⟩ := Prod.mk.inj hmirrors
  refine ⟨_, Prod.ext houtcome rfl, ?_, ?_⟩
  · rw [← hafter]
    rfl
  · rw [← hafter]
    rfl

/-- **A teardown accounts for everything, or changes no file.** It comes to its end unless there was an
answer of the cloud that it is not prepared for. -/
theorem cases_of_runOn_teardown {outcome : Except Fault Teardown}
    (h : InPlace path directory name host.files (.present I G))
    (haside : ∀ i ∈ I, Aside host.files (directory ++ [name]) (credentialsBeside path i))
    (hrun : (onPlatform platform path own).teardown.runOn host = (outcome, after)) :
    (∃ result, outcome = .ok result ∧ Accounted platform path directory name I G
        (exchanges platform path host) host.files after.files result) ∨
      (∃ fault, outcome = .error fault) ∧ after.files = host.files ∧
        ∃ e ∈ exchanges platform path host, e.isHandled = false := by
  obtain ⟨watched, hwatched, hfiles, hseen⟩ := exists_runOn_watched_teardown hrun
  change InPlace path directory name host.watched.files _ at h
  obtain ⟨new, hnew, hend⟩ := cases_of_runOn_watched_teardown h haside hwatched
  obtain rfl : exchanges platform path host = new := by
    rw [hseen] at hnew
    exact hnew
  rw [← hfiles]
  exact hend

/-- Without a ledger file nothing is taken down. -/
theorem runOn_teardown_of_absent (platform : Platform σ) (own : Job σ String)
    (h : InPlace path directory name host.files .absent) :
    ∃ after, (onPlatform platform path own).teardown.runOn host
        = (.error (.ledger (.noFile path)), after) ∧
      after.files = host.files ∧ after.outside = host.outside := by
  rw [teardown, Job.runOn_bind_of_ok (Job.runOn_log _ _ _), Job.runOn_bind_of_ok (Job.runOn_files _)]
  change ∃ after, (Job.ofExcept (Ledger.load host.files path) >>= _).runOn _ = _ ∧ _
  rw [h.load_absent]
  exact ⟨_, rfl, rfl, rfl⟩

end Run

end NodeLedger.Provisioning
