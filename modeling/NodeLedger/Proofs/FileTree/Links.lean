import NodeLedger.Proofs.FileTree.Beside
import NodeLedger.Proofs.FileTree.OneEntry

/-!
# Links on the way and at the end

A link on the way of a path is followed, and so is a link at its end if the path is looked at; only
what is replaced is the link itself. A file in the place of a link therefore ends every path that went
on through the link. But a path that led to a file by a link at its end never goes on through that
link, since it would have to lead to a directory.

- `noLinkAt_of_locate_look`: **a path is never looked at where a link stands**.
- `cases_of_walk_look`: names that a walk goes through lead to a directory.
- `locate_replace_of_differsAt`: **a path that led to no directory still names its entry**, when a file
  stands there or nothing.
- `locate_look_of_differsAt`: it is looked at where a file was put in the place of what it named.
  `read_of_differsAt`: what was put there is read through it.
-/

namespace NodeLedger.FileTree

open Text

/-! ## Looking through links -/

section Look

variable {tree later : FileTree} {start directory : Location} {name target : CodeText} {slash : Bool}
  {names rest : List CodeText} {links left : Nat} {place : Place} {stretch : Stretch}

theorem Leads.noLinkAt (h : Leads tree .look slash directory names stretch) :
    ∀ place, stretch = .arrival place → tree.NoLinkAt place := by
  induction h with
  | ended directory =>
    intro place heq
    cases heq
    trivial
  | dot _ ih => exact ih
  | up _ ih => exact ih
  | arrives hname hlink =>
    intro place heq
    cases heq
    exact hlink (by decide)
  | enters _ _ _ _ ih => exact ih
  | turns _ _ _ => exact fun _ heq => by cases heq

theorem noLinkAt_of_walk_look (h : tree.walk .look links slash directory names = .ok place) :
    tree.NoLinkAt place := by
  induction links generalizing slash directory names with
  | zero =>
    rcases cases_of_walk_eq_ok h with hs | ⟨left, _, _, _, hleft, -⟩
    · exact hs.noLinkAt place rfl
    · cases hleft
  | succ links ih =>
    rcases cases_of_walk_eq_ok h with hs | ⟨left, _, _, _, hleft, -, h⟩
    · exact hs.noLinkAt place rfl
    · cases hleft
      exact ih h

/-- **A path is never looked at where a link stands.** -/
theorem noLinkAt_of_locate_look {path : CodeText} (h : tree.locate .look path = .ok place) :
    tree.NoLinkAt place := by
  exact noLinkAt_of_walk_look (locate_eq_ok_iff.1 h).2

/-- Where replacing goes on with more names, looking at the names so far comes to a directory, or to
the link that replacing follows too. -/
theorem Leads.looks (h : Leads tree .replace false directory (names ++ rest) stretch)
    (hrest : rest ≠ []) (slash : Bool) :
    (∃ place, Leads tree .look slash directory names (.arrival place) ∧
        tree.directoryAt? place = some true) ∨
      ∃ start target more, stretch = .detour start target (more ++ rest) ∧
        Leads tree .look slash directory names (.detour start target more) := by
  induction names generalizing directory with
  | nil => exact .inl ⟨_, .ended directory, rfl⟩
  | cons first names ih =>
    have hmore : names ++ rest ≠ [] := List.append_ne_nil_of_right_ne_nil _ hrest
    rw [List.cons_append] at h
    generalize hall : first :: (names ++ rest) = all at h
    cases h with
    | ended => cases hall
    | dot h =>
      cases hall
      rcases ih h with ⟨place, hlook, hplace⟩ | ⟨start, target, more, heq, hlook⟩
      · exact .inl ⟨place, .dot hlook, hplace⟩
      · exact .inr ⟨start, target, more, heq, .dot hlook⟩
    | up h =>
      cases hall
      rcases ih h with ⟨place, hlook, hplace⟩ | ⟨start, target, more, heq, hlook⟩
      · exact .inl ⟨place, .up hlook, hplace⟩
      · exact .inr ⟨start, target, more, heq, .up hlook⟩
    | arrives hname hlink =>
      rw [List.cons_eq_cons] at hall
      exact absurd hall.2 hmore
    | enters hname hnode _ h =>
      cases hall
      -- Replacing goes on through this directory; looking may end at it.
      by_cases hend : names = []
      · subst hend
        refine .inl ⟨_, .arrives (hname.look _ _) fun _ target hlink => ?_, ?_⟩
        · rw [hnode] at hlink
          cases hlink
        · rw [directoryAt?, hnode]
      · rcases ih h with ⟨place, hlook, hplace⟩ | ⟨start, target, more, heq, hlook⟩
        · exact .inl ⟨place, .enters (hname.look _ _) hnode hend hlook, hplace⟩
        · exact .inr ⟨start, target, more, heq, .enters (hname.look _ _) hnode hend hlook⟩
    | turns hname hnode _ =>
      cases hall
      exact .inr ⟨_, _, names, rfl, .turns (hname.look _ _) hnode fun _ => by decide⟩

/-- Names that a walk goes through lead to a directory when they are looked at, unless so few links may
be followed that looking ends before. -/
theorem cases_of_walk_look
    (h : tree.walk .replace links false directory (names ++ rest) = .ok place) (hrest : rest ≠ [])
    (hleft : left ≤ links) (slash : Bool) :
    tree.walk .look left slash directory names = .error .tooManyLinks ∨
      ∃ seen, tree.walk .look left slash directory names = .ok seen ∧
        tree.directoryAt? seen = some true := by
  induction links using Nat.strongRecOn generalizing left slash directory names with
  | ind links ih =>
    have hseen : (∃ place, Leads tree .look slash directory names (.arrival place) ∧
        tree.directoryAt? place = some true) → ∃ seen,
          tree.walk .look left slash directory names = .ok seen ∧
            tree.directoryAt? seen = some true := by
      rintro ⟨reached, hreached, hdirectory⟩
      exact ⟨reached, walk_of_arrival (stretch_of_leads hreached), hdirectory⟩
    rcases cases_of_walk_eq_ok h with hs | ⟨fewer, start, target, more, rfl, hs, h⟩
    · rcases hs.looks hrest slash with hreached | ⟨_, _, _, heq, -⟩
      · exact .inr (hseen hreached)
      · cases heq
    · rcases hs.looks hrest slash with hreached | ⟨_, _, more, heq, hturn⟩
      · exact .inr (hseen hreached)
      -- Both walks follow the same link, and one of them goes on behind it.
      cases heq
      cases left with
      | zero => exact .inl (by rw [walk, stretch_of_leads hturn])
      | succ left =>
        rw [walk_of_leads_detour hturn]
        have hslash : detourSlash false target (more ++ rest) = false := by
          rw [detourSlash, List.isEmpty_eq_false_iff.2 (List.append_ne_nil_of_right_ne_nil _ hrest)]
          rfl
        rw [hslash, ← List.append_assoc] at h
        exact ih fewer (Nat.lt_succ_self fewer) h (Nat.le_of_succ_le_succ hleft) _

/-- Looking at a link that replacing ends at follows it. -/
theorem Leads.looks_at_link (h : Leads tree .replace slash directory names stretch)
    {reached : Location} (heq : stretch = .arrival (.entry reached name slash))
    (hnode : tree.node? (reached ++ [name]) = some (.link target)) :
    Leads tree .look slash directory names (.detour reached target []) := by
  induction h with
  | ended => cases heq
  | dot _ ih => exact .dot (ih heq)
  | up _ ih => exact .up (ih heq)
  | arrives hname _ =>
    cases heq
    exact .turns (hname.look _ _) hnode fun _ => by decide
  | enters hname hthere hrest _ ih =>
    exact .enters (hname.look _ _) hthere hrest (ih heq)
  | turns => cases heq

/-- Looking follows the link that replacing ends at, if that is not one link too many. -/
theorem exists_walk_of_link
    (h : tree.walk .replace links false start names = .ok (.entry directory name false))
    (hnode : tree.node? (directory ++ [name]) = some (.link target))
    (hlook : tree.walk .look links false start names ≠ .error .tooManyLinks) :
    ∃ left slash, left < links ∧ tree.walk .look links false start names
      = tree.walk .look left slash (detourStart directory target) (Path.names target) := by
  induction links generalizing start names with
  | zero =>
    rcases cases_of_walk_eq_ok h with hs | ⟨_, _, _, _, hzero, -⟩
    · exact absurd (by rw [walk, stretch_of_leads (hs.looks_at_link rfl hnode)]) hlook
    · cases hzero
  | succ links ih =>
    rcases cases_of_walk_eq_ok h with hs | ⟨left, above, path, rest, hleft, hs, h⟩
    · rw [walk_of_leads_detour (hs.looks_at_link rfl hnode), List.append_nil]
      exact ⟨links, _, Nat.lt_succ_self links, rfl⟩
    · cases hleft
      rw [walk_of_leads_detour (hs.look_of_replace fun _ heq => by cases heq)] at hlook ⊢
      have hslash := slash_of_walk h
      rw [hslash] at h hlook ⊢
      obtain ⟨fewer, last, hfewer, hwalk⟩ := ih h hlook
      exact ⟨fewer, last, Nat.lt_succ_of_lt hfewer, hwalk⟩

/-! ## A link that was replaced -/

/-- Without its link a stretch is the same, unless it goes on through there. -/
theorem Leads.of_differsAt (h : Leads tree .replace slash start names stretch)
    (hdiffers : DiffersAt (directory ++ [name]) tree later)
    (hlink : tree.node? (directory ++ [name]) = some (.link target)) :
    Leads later .replace slash start names stretch ∨
      ∃ rest, rest ≠ [] ∧ stretch = .detour directory target rest := by
  induction h with
  | ended start => exact .inl (.ended start)
  | dot _ ih => exact ih.imp_left .dot
  | up _ ih => exact ih.imp_left .up
  | arrives hname _ => exact .inl (.arrives hname fun hother => absurd rfl hother)
  | @enters above first rest stretch hname hnode hrest _ ih =>
    have hother : above ++ [first.known] ≠ directory ++ [name] := fun heq => by
      rw [heq, hlink] at hnode
      cases hnode
    exact ih.imp_left (.enters hname ((hdiffers.other _ hother).trans hnode) hrest)
  | @turns above first path rest hname hnode hrest =>
    by_cases hsame : above ++ [first.known] = directory ++ [name]
    · obtain ⟨rfl, heq⟩ := List.append_inj' hsame rfl
      rw [hsame, hlink] at hnode
      cases hnode
      exact .inr ⟨rest, fun hend => hrest hend rfl, rfl⟩
    · exact .inl (.turns hname ((hdiffers.other _ hsame).trans hnode) hrest)

theorem walk_of_differsAt
    (h : tree.walk .replace links false start names = .ok (.entry directory name false))
    (hdiffers : DiffersAt (directory ++ [name]) tree later)
    (hlink : tree.node? (directory ++ [name]) = some (.link target))
    (hlook : tree.walk .look links false start names ≠ .error .tooManyLinks)
    (hplace : ∀ place, tree.walk .look links false start names = .ok place →
      tree.directoryAt? place ≠ some true) :
    later.walk .replace links false start names = .ok (.entry directory name false) := by
  induction links generalizing start names with
  | zero =>
    rcases cases_of_walk_eq_ok h with hs | ⟨_, _, _, _, hzero, -⟩
    · rcases hs.of_differsAt hdiffers hlink with hs | ⟨_, -, heq⟩
      · exact walk_of_arrival (stretch_of_leads hs)
      · cases heq
    · cases hzero
  | succ links ih =>
    rcases cases_of_walk_eq_ok h with hs | ⟨left, above, path, rest, hleft, hs, h⟩
    · rcases hs.of_differsAt hdiffers hlink with hs | ⟨_, -, heq⟩
      · exact walk_of_arrival (stretch_of_leads hs)
      · cases heq
    · cases hleft
      rw [walk_of_leads_detour (hs.look_of_replace fun _ heq => by cases heq)] at hlook hplace
      have hslash := slash_of_walk h
      rw [hslash] at h hlook hplace
      rcases hs.of_differsAt hdiffers hlink with hs | ⟨rest, hrest, heq⟩
      · rw [walk_of_leads_detour hs, hslash]
        exact ih h hlook hplace
      · -- Then what the link leads to is a directory, wherever it is looked at.
        cases heq
        obtain ⟨fewer, last, hfewer, hwalk⟩ := exists_walk_of_link h hlink hlook
        rcases cases_of_walk_look h hrest (Nat.le_of_lt hfewer) last with hmany | ⟨seen, hseen, hkind⟩
        · exact absurd (hwalk.trans hmany) hlook
        · exact absurd hkind (hplace seen (hwalk.trans hseen))

/-- **A path that led to no directory** still names the entry that it named, when a file stands there
or nothing. -/
theorem locate_replace_of_differsAt {path : CodeText}
    (h : tree.locate .replace path = .ok (.entry directory name false))
    (hlook : tree.locate .look path ≠ .error .tooManyLinks)
    (hplace : ∀ place, tree.locate .look path = .ok place → tree.directoryAt? place ≠ some true)
    (hdiffers : DiffersAt (directory ++ [name]) tree later)
    (hfile : later.fixture? (directory ++ [name]) = none) :
    later.locate .replace path = .ok (.entry directory name false) := by
  by_cases hfixture : tree.fixture? (directory ++ [name]) = none
  · exact locate_of_alike (alike_of_other hdiffers.workDir hfixture hfile hdiffers.other) h
  obtain ⟨node, hnode⟩ := Option.ne_none_iff_exists'.1 hfixture
  have hthere := node?_of_fixture? hnode
  cases node with
  | file content mode => exact absurd (fixture?_of_file hthere) hfixture
  | directory =>
    have hsame := locate_look_of_replace h fun target hlink => by
      rw [hthere] at hlink
      cases hlink
    exact absurd (by rw [directoryAt?, hthere]) (hplace _ hsame)
  | link target =>
    obtain ⟨hpath, hwalk⟩ := locate_eq_ok_iff.1 h
    have hslash := slash_of_walk hwalk
    refine locate_eq_ok_iff.2 ⟨hpath, ?_⟩
    rw [hslash, hdiffers.workDir]
    rw [locate, if_neg hpath.1, if_neg hpath.2, hslash] at hlook hplace
    rw [hslash] at hwalk
    exact walk_of_differsAt hwalk hdiffers hthere hlook hplace

/-- **A path that led to a file** is looked at where a file was put in the place of what it named. -/
theorem locate_look_of_differsAt {path : CodeText}
    (h : tree.locate .replace path = .ok (.entry directory name false))
    (hlook : tree.locate .look path ≠ .error .tooManyLinks)
    (hplace : ∀ place, tree.locate .look path = .ok place → tree.directoryAt? place ≠ some true)
    (hdiffers : DiffersAt (directory ++ [name]) tree later)
    (hfile : later.fixture? (directory ++ [name]) = none) :
    later.locate .look path = .ok (.entry directory name false) := by
  refine locate_look_of_replace (locate_replace_of_differsAt h hlook hplace hdiffers hfile) ?_
  intro target hlink
  rw [fixture?_of_link hlink] at hfile
  cases hfile

end Look

/-! ## Reading -/

section Read

variable {tree later : FileTree} {path name : CodeText} {directory : Location} {bytes : List UInt8}

/-- **What was put in the place of a file that could be read** is read through the same path. -/
theorem read_of_differsAt {content : List UInt8} {mode : Nat} (hread : tree.read path = .ok bytes)
    (h : tree.locate .replace path = .ok (.entry directory name false))
    (hdiffers : DiffersAt (directory ++ [name]) tree later)
    (hnode : later.node? (directory ++ [name]) = some (.file content mode)) :
    later.read path = .ok content := by
  obtain ⟨hfault, place, hlook, hkind⟩ := exists_place_of_read hread
  have hmany : tree.locate .look path ≠ .error .tooManyLinks := by
    rw [hlook]
    exact fun heq => by cases heq
  have hplace : ∀ seen, tree.locate .look path = .ok seen → tree.directoryAt? seen ≠ some true := by
    intro seen hseen
    cases hlook.symm.trans hseen
    rw [hkind]
    decide
  exact read_of_locate hfault
    (locate_look_of_differsAt h hmany hplace hdiffers (fixture?_of_file hnode)) hnode

end Read

end NodeLedger.FileTree
