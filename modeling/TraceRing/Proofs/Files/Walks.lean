import TraceRing.Proofs.Files.Trees

/-!
# Where paths lead

A walk that arrives somewhere is a derivation (`Tree.Leads`), and what a change of the tree does to
it is seen from its steps: a tree with more in it leads to the same end (`Leads.mono`), and so does
one that differs at a place where no directory and no link is (`Leads.congr_apart`). A path to a
vacant place leads to the file that is created there, until the file is removed again
(`Vacant.addFile`, `HasFile.dropEntry`).
-/

namespace TraceRing.Files.Tree

variable {t u : Tree} {place : Place} {n : Node}

/-! ## Entries -/

/-- Whatever stands somewhere in a tree stands there in the other. -/
def Within (t u : Tree) : Prop :=
  ∀ place n, t.node? place = some n → u.node? place = some n

theorem Within.refl (t : Tree) : t.Within t :=
  fun _ _ hn => hn

theorem Within.trans {v : Tree} (h : t.Within u) (h' : u.Within v) : t.Within v :=
  fun place n hn => h' place n (h place n hn)

theorem node?_congr (h : u.directories = t.directories) (place : Place) :
    u.node? place = t.node? place := by
  simp only [node?, entries, h]

/-- Only in a directory that is there something stands. -/
theorem lt_of_node? (h : t.node? place = some n) : place.directory < t.directories.size := by
  rcases Nat.lt_or_ge place.directory t.directories.size with hlt | hge
  · exact hlt
  · simp [node?, entries, Array.getD_eq_getD_getElem?, hge] at h

theorem within_of_directories (h : u.directories = t.directories) : t.Within u := by
  intro place n hn
  rwa [node?_congr h]

theorem entries_addEntry (t : Tree) (place : Place) (n : Node) (directory : Nat) :
    (t.addEntry place n).entries directory =
      if directory = place.directory ∧ directory < t.directories.size then
        t.entries directory ++ [(place.name, n)]
      else t.entries directory := by
  simp only [addEntry, entries, Array.getD_eq_getD_getElem?, Array.getElem?_modify]
  by_cases hdirectory : directory = place.directory
  · subst hdirectory
    by_cases hlt : place.directory < t.directories.size <;> simp [hlt]
  · simp [hdirectory, Ne.symm hdirectory]

theorem node?_addEntry_self (hinside : place.directory < t.directories.size)
    (hvacant : t.node? place = none) (n : Node) : (t.addEntry place n).node? place = some n := by
  rw [node?] at hvacant ⊢
  rw [entries_addEntry, if_pos ⟨rfl, hinside⟩, List.lookup_append, hvacant]
  simp

theorem within_addEntry (t : Tree) (place : Place) (n : Node) : t.Within (t.addEntry place n) := by
  intro other m hm
  rw [node?] at hm ⊢
  rw [entries_addEntry]
  split
  · rw [List.lookup_append, hm]
    rfl
  · exact hm

theorem within_addFile (t : Tree) (place : Place) : t.Within (t.addFile place).2 :=
  within_addEntry { t with contents := t.contents.push .empty } place _

/-- In a new directory nothing stands. -/
theorem node?_push (t : Tree) (other : Place) :
    node? { t with directories := t.directories.push [] } other = t.node? other := by
  rw [node?, node?]
  congr 1
  simp only [entries, Array.getD_eq_getD_getElem?, Array.getElem?_push]
  split
  · next heq => simp [heq]
  · rfl

theorem within_addDirectory (t : Tree) (place : Place) : t.Within (t.addDirectory place) := by
  intro other m hm
  refine within_addEntry _ place _ other m ?_
  rw [node?_push, hm]

theorem lookup_filter (entries : List (Name × Node)) (name other : Name) :
    (entries.filter fun e => e.1 ≠ name).lookup other =
      if other = name then none else entries.lookup other := by
  induction entries with
  | nil => simp
  | cons e rest ih =>
    obtain ⟨first, m⟩ := e
    by_cases hfirst : first = name
    · rw [List.filter_cons_of_neg (by simp [hfirst]), ih]
      split
      · rfl
      · next hother =>
        have hne : (other == first) = false := by simpa [hfirst] using hother
        rw [List.lookup_cons, hne]
    · rw [List.filter_cons_of_pos (by simp [hfirst]), List.lookup_cons, List.lookup_cons, ih]
      cases heq : other == first with
      | false => rfl
      | true =>
        have hne : other ≠ name := beq_iff_eq.mp heq ▸ hfirst
        exact (if_neg hne).symm

theorem node?_dropEntry (t : Tree) (place other : Place) :
    (t.dropEntry place).node? other = if other = place then none else t.node? other := by
  simp only [node?, dropEntry, entries, Array.getD_eq_getD_getElem?, Array.getElem?_modify]
  by_cases hdirectory : other.directory = place.directory
  · have hiff : other = place ↔ other.name = place.name := by
      cases other
      cases place
      simp_all
    rw [hdirectory, if_pos rfl]
    cases t.directories[place.directory]? with
    | none => simp
    | some entries => simp only [Option.map_some, Option.getD_some, lookup_filter, hiff]
  · have hne : other ≠ place := fun heq => hdirectory (congrArg Place.directory heq)
    rw [if_neg (Ne.symm hdirectory), if_neg hne]

theorem within_dropEntry (t : Tree) (place : Place) : (t.dropEntry place).Within t := by
  intro other m hm
  rw [node?_dropEntry] at hm
  split at hm
  · cases hm
  · exact hm

/-- Removing what was just added restores the directories. -/
theorem directories_dropEntry_addFile (hvacant : t.node? place = none) :
    ((t.addFile place).2.dropEntry place).directories = t.directories := by
  simp only [addFile, addEntry, dropEntry]
  apply Array.ext
  · simp
  · intro directory hlt hlt'
    simp only [Array.getElem_modify]
    split
    · next heq =>
      subst heq
      rw [node?, entries, Array.getD_eq_getD_getElem?, Array.getElem?_eq_getElem hlt',
        Option.getD_some, List.lookup_eq_none_iff] at hvacant
      rw [List.filter_append, List.filter_eq_self.mpr]
      · simp
      · intro e he
        simpa using fun heq => bne_iff_ne.mp (hvacant e he) (Eq.symm heq)
    · rfl

/-! ## Walks -/

/-- How names lead somewhere: the steps of a walk that arrives. -/
inductive Leads (t : Tree) (following : Following) :
    Nat → Way → Bool → List Name → Ending → Prop where
  | arrived {links : Nat} {here : Way} {slash : Bool} :
      Leads t following links here slash [] (.directory here.target)
  | stay {links : Nat} {here : Way} {slash : Bool} {rest : List Name} {e : Ending}
      (h : Leads t following links here slash rest e) :
      Leads t following links here slash (dot :: rest) e
  | back {links : Nat} {here : Way} {slash : Bool} {rest : List Name} {e : Ending}
      (h : Leads t following links here.tail slash rest e) :
      Leads t following links here slash (dotDot :: rest) e
  /-- The last name is not looked up. -/
  | unseen {links : Nat} {here : Way} {slash : Bool} {name : Name}
      (hname : name ≠ dot ∧ name ≠ dotDot) (hfollowing : following.follows slash = false) :
      Leads t following links here slash [name] (.entry ⟨here.target, name⟩ slash)
  | last {links : Nat} {here : Way} {slash : Bool} {name : Name} (hname : IsPlain name)
      (hfollowing : following.follows slash = true)
      (hnode : ∀ target, t.node? ⟨here.target, name⟩ ≠ some (.link target)) :
      Leads t following links here slash [name] (.entry ⟨here.target, name⟩ slash)
  | link {links : Nat} {here : Way} {slash : Bool} {name : Name} {rest : List Name}
      {target : Bytes} {e : Ending} (hname : IsPlain name)
      (hfollowing : ¬ (rest = [] ∧ following.follows slash = false))
      (hnode : t.node? ⟨here.target, name⟩ = some (.link target))
      (h : Leads t following links (if Path.isAbsolute target then [] else here)
        (slash || decide (rest = []) && Path.endsWithSlash target) (Path.names target ++ rest) e) :
      Leads t following (links + 1) here slash (name :: rest) e
  | enter {links : Nat} {here : Way} {slash : Bool} {name : Name} {rest : List Name}
      {number : Nat} {e : Ending} (hname : IsPlain name) (hrest : rest ≠ [])
      (hnode : t.node? ⟨here.target, name⟩ = some (.directory number))
      (h : Leads t following links (number :: here) slash rest e) :
      Leads t following links here slash (name :: rest) e

variable {following : Following} {links : Nat} {here : Way} {slash : Bool} {names : List Name}
  {e : Ending}

theorem leads_of_walk (h : t.walk following links here slash names = .ok e) :
    t.Leads following links here slash names e := by
  fun_induction walk t following links here slash names with
  | case1 => cases h; exact .arrived
  | case2 _ _ _ _ ih => exact .stay (ih h)
  | case3 _ _ _ _ _ ih => exact .back (ih h)
  | case4 _ _ _ _ rest _ hdot hdotDot hlast =>
    cases h
    obtain ⟨rfl, hfollowing⟩ := hlast
    exact .unseen ⟨hdot, hdotDot⟩ hfollowing
  | case5 => cases h
  | case6 => cases h
  | case7 _ _ _ _ _ hdot hdotDot hfollowing hlong _ hnode _ _ ih =>
    exact .link ⟨hdot, hdotDot, Nat.not_lt.mp hlong⟩ hfollowing hnode (by simpa using ih h)
  | case8 _ _ _ _ _ hdot hdotDot hlong hfollowing hnode =>
    cases h
    exact .last ⟨hdot, hdotDot, Nat.not_lt.mp hlong⟩ (by simpa using hfollowing) hnode
  | case9 _ _ _ _ _ _ hdot hdotDot _ hlong hrest _ _ hnode ih =>
    exact .enter ⟨hdot, hdotDot, Nat.not_lt.mp hlong⟩ hrest hnode (ih h)
  | case10 => cases h
  | case11 => cases h

theorem Leads.walk (h : t.Leads following links here slash names e) :
    t.walk following links here slash names = .ok e := by
  induction h with
  | arrived => rw [Tree.walk]
  | stay _ ih => rw [Tree.walk, if_pos rfl, ih]
  | back _ ih => rw [Tree.walk, if_neg (by decide), if_pos rfl, ih]
  | unseen hname hfollowing =>
    rw [Tree.walk, if_neg hname.1, if_neg hname.2, if_pos ⟨rfl, hfollowing⟩]
  | last hname _ hnode => exact walk_last hname hnode
  | link hname hfollowing hnode _ ih =>
    rw [Tree.walk, if_neg hname.ne_dot, if_neg hname.ne_dotDot, if_neg hfollowing,
      if_neg (Nat.not_lt.mpr hname.length_le)]
    simp only [hnode, ih]
  | enter hname hrest hnode _ ih => rw [walk_directory hname hnode hrest, ih]

theorem walk_eq_ok_iff : t.walk following links here slash names = .ok e ↔
    t.Leads following links here slash names e :=
  ⟨leads_of_walk, Leads.walk⟩

namespace Leads

/-- A tree with more in it leads to the same end, unless there is a link now to be followed. -/
theorem mono (h : t.Leads following links here slash names e) (hwithin : t.Within u)
    (hlast : ∀ place slash, e = .entry place slash →
      following = .never ∨ ∃ n, t.node? place = some n) :
    u.Leads following links here slash names e := by
  induction h with
  | arrived => exact .arrived
  | stay _ ih => exact .stay (ih hlast)
  | back _ ih => exact .back (ih hlast)
  | unseen hname hfollowing => exact .unseen hname hfollowing
  | last hname hfollowing hnode =>
    rcases hlast _ _ rfl with rfl | ⟨n, hn⟩
    · cases hfollowing
    · refine .last hname hfollowing fun target hlink => hnode target ?_
      rw [hn, ← hwithin _ _ hn, hlink]
  | link hname hfollowing hnode _ ih =>
    exact .link hname hfollowing (hwithin _ _ hnode) (ih hlast)
  | enter hname hrest hnode _ ih => exact .enter hname hrest (hwithin _ _ hnode) (ih hlast)

/-- What stands at a place a path does not go through is of no account. -/
theorem congr_apart (h : t.Leads following links here slash names e)
    (hother : ∀ other, other ≠ place → u.node? other = t.node? other)
    (ht : ∀ n, t.node? place = some n → ∃ inode, n = .file inode)
    (hu : ∀ n, u.node? place = some n → ∃ inode, n = .file inode) :
    u.Leads following links here slash names e := by
  have hkept : ∀ other n, t.node? other = some n → (∀ inode, n ≠ .file inode) →
      u.node? other = some n := by
    intro other n hn hfile
    rw [← hn]
    refine hother other fun heq => ?_
    obtain ⟨inode, rfl⟩ := ht n (heq ▸ hn)
    exact hfile inode rfl
  induction h with
  | arrived => exact .arrived
  | stay _ ih => exact .stay ih
  | back _ ih => exact .back ih
  | unseen hname hfollowing => exact .unseen hname hfollowing
  | @last _ here _ name hname hfollowing hnode =>
    refine .last hname hfollowing fun target hlink => ?_
    by_cases heq : (⟨here.target, name⟩ : Place) = place
    · obtain ⟨inode, hinode⟩ := hu _ (heq ▸ hlink)
      cases hinode
    · exact hnode target (hother _ heq ▸ hlink)
  | link hname hfollowing hnode _ ih =>
    exact .link hname hfollowing (hkept _ _ hnode fun _ => by simp) ih
  | enter hname hrest hnode _ ih =>
    exact .enter hname hrest (hkept _ _ hnode fun _ => by simp) ih

/-- Where a path leads with all links followed, it leads somewhere if the last one is not. -/
theorem never (h : t.Leads following links here slash names e) :
    ∃ e', t.Leads .never links here slash names e' := by
  induction h with
  | arrived => exact ⟨_, .arrived⟩
  | stay _ ih => exact ih.imp fun _ => .stay
  | back _ ih => exact ih.imp fun _ => .back
  | unseen hname _ => exact ⟨_, .unseen hname rfl⟩
  | last hname _ _ => exact ⟨_, .unseen ⟨hname.ne_dot, hname.ne_dotDot⟩ rfl⟩
  | @link _ _ _ _ rest _ _ hname _ hnode _ ih =>
    by_cases hrest : rest = []
    · subst hrest
      exact ⟨_, .unseen ⟨hname.ne_dot, hname.ne_dotDot⟩ rfl⟩
    · exact ih.imp fun _ => .link hname (fun hlast => hrest hlast.1) hnode
  | enter hname hrest hnode _ ih => exact ih.imp fun _ => .enter hname hrest hnode

/-- A slash that comes behind a path is not forgotten. -/
theorem slash_of_entry (h : t.Leads following links here slash names e)
    (he : e = .entry place false) : slash = false := by
  induction h with
  | arrived => cases he
  | stay _ ih => exact ih he
  | back _ ih => exact ih he
  | unseen _ _ =>
    cases he
    rfl
  | last _ _ _ =>
    cases he
    rfl
  | link _ _ _ _ ih => exact (Bool.or_eq_false_iff.mp (ih he)).1
  | enter _ _ _ _ ih => exact ih he

/-- Where a path leads with all links followed something stands, and where it leads if the last one
is not followed something does, be it that link. -/
theorem never_of_found (h : t.Leads following links here slash names e)
    (he : e = .entry place false) (hname : place.name.length ≤ nameLimit)
    (hnode : t.node? place = some n) :
    ∃ place' n', t.Leads .never links here slash names (.entry place' false) ∧
      place'.name.length ≤ nameLimit ∧ t.node? place' = some n' := by
  induction h with
  | arrived => cases he
  | stay _ ih =>
    obtain ⟨place', n', hleads, hfound⟩ := ih he
    exact ⟨place', n', .stay hleads, hfound⟩
  | back _ ih =>
    obtain ⟨place', n', hleads, hfound⟩ := ih he
    exact ⟨place', n', .back hleads, hfound⟩
  | unseen hplain _ =>
    cases he
    exact ⟨_, n, .unseen hplain rfl, hname, hnode⟩
  | last hplain _ _ =>
    cases he
    exact ⟨_, n, .unseen ⟨hplain.ne_dot, hplain.ne_dotDot⟩ rfl, hname, hnode⟩
  | @link _ here slash name rest target _ hplain _ hlink hleads ih =>
    have hslash : slash = false := (Bool.or_eq_false_iff.mp (hleads.slash_of_entry he)).1
    subst hslash
    by_cases hrest : rest = []
    · subst hrest
      exact ⟨⟨here.target, name⟩, .link target, .unseen ⟨hplain.ne_dot, hplain.ne_dotDot⟩ rfl,
        hplain.length_le, hlink⟩
    · obtain ⟨place', n', hbehind, hfound⟩ := ih he
      exact ⟨place', n', .link hplain (fun hlast => hrest hlast.1) hlink hbehind, hfound⟩
  | enter hplain hrest hdirectory _ ih =>
    obtain ⟨place', n', hleads, hfound⟩ := ih he
    exact ⟨place', n', .enter hplain hrest hdirectory hleads, hfound⟩

/-- A path leads to its last name however links are treated, if there is none. -/
theorem of_never (h : t.Leads .never links here slash names e) {place : Place}
    {following : Following} {slash' : Bool} (he : e = .entry place slash')
    (hname : place.name.length ≤ nameLimit)
    (hnode : ∀ target, t.node? place ≠ some (.link target)) :
    t.Leads following links here slash names e := by
  induction h with
  | arrived => cases he
  | stay _ ih => exact .stay (ih he)
  | back _ ih => exact .back (ih he)
  | unseen hplain _ =>
    cases he
    cases hfollowing : following.follows slash' with
    | false => exact .unseen hplain hfollowing
    | true => exact .last ⟨hplain.1, hplain.2, hname⟩ hfollowing hnode
  | last _ hfollowing _ => cases hfollowing
  | link hplain hrest hlink _ ih =>
    exact .link hplain (fun hlast => hrest ⟨hlast.1, rfl⟩) hlink (ih he)
  | enter hplain hrest hdirectory _ ih => exact .enter hplain hrest hdirectory (ih he)

end Leads

/-! ## Paths -/

variable {cwd : Location} {path : Bytes} {inode size : Nat}

theorem descend?_of_kept {way way' : Way} {location : Location}
    (hkept : ∀ place number, t.node? place = some (.directory number) →
      u.node? place = some (.directory number))
    (h : t.descend? way location = some way') : u.descend? way location = some way' := by
  induction location generalizing way with
  | nil => exact h
  | cons name rest ih =>
    simp only [descend?] at h ⊢
    split at h
    · next number hnumber =>
      rw [hkept _ _ hnumber]
      exact ih h
    · cases h

theorem locate_eq_ok_iff : t.locate cwd following path = .ok e ↔
    (path.contains 0 = false ∧ path ≠ [] ∧ path.length < pathLimit) ∧
      ∃ start, (if Path.isAbsolute path then some [] else t.descend? [] cwd) = some start ∧
        t.Leads following linkLimit start (Path.endsWithSlash path) (Path.names path) e := by
  simp only [locate, ← walk_eq_ok_iff]
  constructor
  · intro h
    split at h
    · cases h
    · next hnul =>
      split at h
      · cases h
      · next hne =>
        split at h
        · cases h
        · next hlimit =>
          refine ⟨⟨by simpa using hnul, hne, Nat.not_le.mp hlimit⟩, ?_⟩
          split at h
          · cases h
          · next start hstart =>
            refine ⟨start, hstart, ?_⟩
            split at h
            · cases h
            · next hwalk =>
              rw [hwalk, Except.ok.inj h]
  · rintro ⟨⟨hnul, hne, hlimit⟩, start, hstart, hwalk⟩
    rw [if_neg (by simpa using hnul), if_neg hne, if_neg (Nat.not_le.mpr hlimit)]
    simp only [hstart, hwalk]

/-- A change that keeps directories and the steps of walks keeps where a path leads. -/
theorem locate_of_kept (h : t.locate cwd following path = .ok e)
    (hkept : ∀ place number, t.node? place = some (.directory number) →
      u.node? place = some (.directory number))
    {following' : Following} {e' : Ending}
    (hleads : ∀ {start slash names}, t.Leads following linkLimit start slash names e →
      u.Leads following' linkLimit start slash names e') :
    u.locate cwd following' path = .ok e' := by
  rw [locate_eq_ok_iff] at h ⊢
  obtain ⟨hpath, start, hstart, hwalk⟩ := h
  refine ⟨hpath, start, ?_, hleads hwalk⟩
  split
  · next habsolute => rwa [if_pos habsolute] at hstart
  · next hrelative =>
    rw [if_neg hrelative] at hstart
    exact descend?_of_kept hkept hstart

theorem locate_mono (h : t.locate cwd following path = .ok e) (hwithin : t.Within u)
    (hlast : ∀ place slash, e = .entry place slash →
      following = .never ∨ ∃ n, t.node? place = some n) :
    u.locate cwd following path = .ok e :=
  locate_of_kept h (fun _ _ => hwithin _ _) fun hleads => hleads.mono hwithin hlast

theorem search_eq_some_iff : t.search place = .ok (some n) ↔
    place.name.length ≤ nameLimit ∧ t.node? place = some n := by
  simp only [search]
  split
  · next hlong => simp [Nat.not_le.mpr hlong]
  · next hlong => simp [Nat.not_lt.mp hlong]

theorem search_eq_none_iff : t.search place = .ok none ↔
    place.name.length ≤ nameLimit ∧ t.node? place = none := by
  simp only [search]
  split
  · next hlong => simp [Nat.not_le.mpr hlong]
  · next hlong => simp [Nat.not_lt.mp hlong]

/-- The node at the end of a path. -/
theorem find_eq_ok_iff : t.find cwd path = .ok n ↔
    (∃ number, t.locate cwd .always path = .ok (.directory number) ∧ n = .directory number) ∨
      ∃ place slash, t.locate cwd .always path = .ok (.entry place slash) ∧
        t.search place = .ok (some n) ∧ (slash = true → ∃ number, n = .directory number) := by
  simp only [find]
  cases hlocate : t.locate cwd .always path with
  | error e => simp
  | ok e =>
    cases e with
    | directory number => simp [eq_comm]
    | entry place slash =>
      simp only [reduceCtorEq, false_and, exists_false, false_or, Except.ok.injEq,
        Ending.entry.injEq]
      constructor
      · intro h
        refine ⟨place, slash, ⟨rfl, rfl⟩, ?_⟩
        split at h
        all_goals cases h
        · next hsearch => exact ⟨hsearch, fun _ => ⟨_, rfl⟩⟩
        · next _ hsearch => exact ⟨hsearch, by simp⟩
      · rintro ⟨_, _, ⟨rfl, rfl⟩, hsearch, hslash⟩
        rw [hsearch]
        cases slash with
        | true =>
          obtain ⟨number, rfl⟩ := hslash rfl
          rfl
        | false => cases n <;> rfl

theorem fileSize?_eq_some_iff : t.fileSize? cwd path = some size ↔
    ∃ inode, t.find cwd path = .ok (.file inode) ∧ (t.read inode).size = size := by
  simp only [fileSize?]
  constructor
  · intro h
    split at h
    · next inode hfind => exact ⟨inode, hfind, Option.some.inj h⟩
    · cases h
  · rintro ⟨inode, hfind, rfl⟩
    rw [hfind]

/-- What a path leads to stays there while a tree grows. -/
theorem find_mono (h : t.find cwd path = .ok n) (hwithin : t.Within u) :
    u.find cwd path = .ok n := by
  rw [find_eq_ok_iff] at h ⊢
  rcases h with ⟨number, hlocate, hn⟩ | ⟨place, slash, hlocate, hsearch, hslash⟩
  · exact .inl ⟨number, locate_mono hlocate hwithin (by rintro _ _ ⟨⟩), hn⟩
  · obtain ⟨hname, hnode⟩ := search_eq_some_iff.mp hsearch
    refine .inr ⟨place, slash, locate_mono hlocate hwithin ?_,
      search_eq_some_iff.mpr ⟨hname, hwithin _ _ hnode⟩, hslash⟩
    rintro _ _ ⟨⟩
    exact .inr ⟨n, hnode⟩

/-- A path that leads somewhere leads there also if its last name is not followed. -/
theorem exists_locate_never (h : t.find cwd path = .ok n) :
    ∃ e, t.locate cwd .never path = .ok e := by
  obtain ⟨e, hlocate⟩ : ∃ e, t.locate cwd .always path = .ok e := by
    rcases find_eq_ok_iff.mp h with ⟨number, hlocate, -⟩ | ⟨place, slash, hlocate, -⟩
    · exact ⟨_, hlocate⟩
    · exact ⟨_, hlocate⟩
  obtain ⟨hpath, start, hstart, hleads⟩ := locate_eq_ok_iff.mp hlocate
  obtain ⟨e', hnever⟩ := hleads.never
  exact ⟨e', locate_eq_ok_iff.mpr ⟨hpath, start, hstart, hnever⟩⟩

/-- What can be opened cannot be created. -/
theorem createNew_of_openExisting {opened : Opened} (h : t.openExisting cwd path = .ok opened) :
    t.createNew cwd path = .error (.system .alreadyExists) := by
  obtain ⟨n, hfind, hdirectory⟩ :
      ∃ n, t.find cwd path = .ok n ∧ ∀ number, n ≠ .directory number := by
    simp only [openExisting] at h
    split at h
    all_goals cases h
    · next hfind => exact ⟨_, hfind, nofun⟩
    · next hfind => exact ⟨_, hfind, nofun⟩
  rcases find_eq_ok_iff.mp hfind with ⟨number, -, hn⟩ | ⟨place, slash, hlocate, hsearch, hslash⟩
  · exact absurd hn (hdirectory number)
  · cases slash with
    | true =>
      obtain ⟨number, hn⟩ := hslash rfl
      exact absurd hn (hdirectory number)
    | false =>
      obtain ⟨hname, hnode⟩ := search_eq_some_iff.mp hsearch
      obtain ⟨hpath, start, hstart, hleads⟩ := locate_eq_ok_iff.mp hlocate
      obtain ⟨place', n', hnever, hfound⟩ := hleads.never_of_found rfl hname hnode
      have hlocated : t.locate cwd .never path = .ok (.entry place' false) :=
        locate_eq_ok_iff.mpr ⟨hpath, start, hstart, hnever⟩
      simp only [createNew, hlocated, search_eq_some_iff.mpr hfound]

/-! ## Places at the end of a path -/

/-- A path leads to a place where nothing is, in a directory that is there. -/
structure Vacant (t : Tree) (cwd : Location) (path : Bytes) (place : Place) : Prop where
  located : t.locate cwd .never path = .ok (.entry place false)
  vacant : t.search place = .ok none
  inside : place.directory < t.directories.size

/-- A path leads to a place where a file is. -/
structure HasFile (t : Tree) (cwd : Location) (path : Bytes) (place : Place) (inode : Nat) :
    Prop where
  located : t.locate cwd .never path = .ok (.entry place false)
  found : t.search place = .ok (some (.file inode))

/-- A place without a link is the end of the path to it. -/
theorem locate_always (h : t.locate cwd .never path = .ok (.entry place slash))
    (hname : place.name.length ≤ nameLimit)
    (hnode : ∀ target, t.node? place ≠ some (.link target)) :
    t.locate cwd .always path = .ok (.entry place slash) :=
  locate_of_kept h (fun _ _ => id) fun hleads => hleads.of_never rfl hname hnode

namespace Vacant

theorem find (h : t.Vacant cwd path place) : t.find cwd path = .error (.system .noEntry) := by
  obtain ⟨hname, hnode⟩ := search_eq_none_iff.mp h.vacant
  have hlocate := locate_always h.located hname (by simp [hnode])
  simp only [Tree.find, hlocate, h.vacant]

theorem pathExists (h : t.Vacant cwd path place) : t.pathExists cwd path = false := by
  rw [Tree.pathExists, h.find]
  rfl

theorem createNew (h : t.Vacant cwd path place) :
    t.createNew cwd path = .ok (t.addFile place) := by
  simp only [Tree.createNew, h.located, h.vacant]

/-- The path leads to the file that was created at its end. -/
theorem addFile (h : t.Vacant cwd path place) :
    (t.addFile place).2.HasFile cwd path place t.contents.size := by
  obtain ⟨hname, hnode⟩ := search_eq_none_iff.mp h.vacant
  refine ⟨locate_mono h.located (within_addFile t place) fun _ _ _ => .inl rfl,
    search_eq_some_iff.mpr ⟨hname, ?_⟩⟩
  exact node?_addEntry_self (t := { t with contents := _ }) h.inside hnode _

theorem congr (h : t.Vacant cwd path place) (hsame : u.directories = t.directories) :
    u.Vacant cwd path place := by
  obtain ⟨hname, hnode⟩ := search_eq_none_iff.mp h.vacant
  refine ⟨locate_mono h.located (within_of_directories hsame) fun _ _ _ => .inl rfl,
    search_eq_none_iff.mpr ⟨hname, ?_⟩, hsame ▸ h.inside⟩
  rw [node?_congr hsame, hnode]

end Vacant

namespace HasFile

theorem node (h : t.HasFile cwd path place inode) : t.node? place = some (.file inode) :=
  (search_eq_some_iff.mp h.found).2

theorem find (h : t.HasFile cwd path place inode) : t.find cwd path = .ok (.file inode) := by
  obtain ⟨hname, hnode⟩ := search_eq_some_iff.mp h.found
  have hlocate := locate_always h.located hname (by simp [hnode])
  exact find_eq_ok_iff.mpr (.inr ⟨place, false, hlocate, h.found, by simp⟩)

theorem createNew (h : t.HasFile cwd path place inode) :
    t.createNew cwd path = .error (.system .alreadyExists) := by
  simp only [Tree.createNew, h.located, h.found]

theorem remove (h : t.HasFile cwd path place inode) :
    t.remove cwd path = .ok (t.dropEntry place) := by
  simp only [Tree.remove, h.located, h.found, Bool.false_eq_true, if_false]

theorem mono (h : t.HasFile cwd path place inode) (hwithin : t.Within u) :
    u.HasFile cwd path place inode := by
  obtain ⟨hname, hnode⟩ := search_eq_some_iff.mp h.found
  exact ⟨locate_mono h.located hwithin fun _ _ _ => .inl rfl,
    search_eq_some_iff.mpr ⟨hname, hwithin _ _ hnode⟩⟩

/-- A file that a path still leads to in a smaller tree is where it was. -/
theorem of_within (h : t.HasFile cwd path place inode) (hwithin : u.Within t)
    (hfind : u.find cwd path = .ok (.file inode)) : u.HasFile cwd path place inode := by
  obtain ⟨e, hnever⟩ := exists_locate_never hfind
  have hsame := locate_mono hnever hwithin fun _ _ _ => .inl rfl
  cases hsame.symm.trans h.located
  obtain ⟨hname, -⟩ := search_eq_some_iff.mp h.found
  refine ⟨hnever, search_eq_some_iff.mpr ⟨hname, ?_⟩⟩
  cases hnode : u.node? place with
  | none =>
    -- the path would lead nowhere
    have hlocate := locate_always hnever hname (by simp [hnode])
    simp only [Tree.find, hlocate, search_eq_none_iff.mpr ⟨hname, hnode⟩] at hfind
    cases hfind
  | some n => rw [← h.node, ← hwithin _ _ hnode]

/-- Once the file is removed its place is vacant. -/
theorem dropEntry (h : t.HasFile cwd path place inode) :
    (t.dropEntry place).Vacant cwd path place := by
  obtain ⟨hname, hnode⟩ := search_eq_some_iff.mp h.found
  have hvacant : (t.dropEntry place).node? place = none := by rw [node?_dropEntry, if_pos rfl]
  have hother : ∀ other, other ≠ place → (t.dropEntry place).node? other = t.node? other := by
    intro other hne
    rw [node?_dropEntry, if_neg hne]
  refine ⟨?_, search_eq_none_iff.mpr ⟨hname, hvacant⟩, ?_⟩
  · refine locate_of_kept h.located (fun other number hnumber => ?_) fun hleads =>
      hleads.congr_apart hother ?_ ?_
    · rw [hother other fun heq => by simp [heq, hnode] at hnumber, hnumber]
    · intro n hn
      exact ⟨inode, Option.some.inj (hn.symm.trans hnode)⟩
    · simp [hvacant]
  · simpa only [Tree.dropEntry, Array.size_modify] using lt_of_node? hnode

end HasFile

/-! ## Calls -/

/-- Creating a file leaves everything where it was. -/
theorem within_create {opened : Opened} (h : t.create cwd path = .ok (opened, u)) :
    t.Within u := by
  simp only [create] at h
  repeat' split at h
  all_goals cases h
  · exact within_addFile t _
  · exact within_of_directories rfl
  · exact .refl t

/-- Creating a file changes no other. -/
theorem read_create_of_ne {opened : Opened} (h : t.create cwd path = .ok (opened, u))
    (hinode : inode < t.contents.size) (hne : opened ≠ .file inode) :
    u.read inode = t.read inode := by
  simp only [create] at h
  repeat' split at h
  all_goals cases h
  · exact (addFile_of_lt hinode _).2.2
  · exact read_write_of_ne (fun heq => hne (congrArg Opened.file heq)) _
  · rfl

theorem within_remove (h : t.remove cwd path = .ok u) : u.Within t := by
  simp only [remove] at h
  repeat' split at h
  all_goals cases h
  exact within_dropEntry t _

theorem within_makeDirectory (h : t.makeDirectory cwd path = .ok u) : t.Within u := by
  simp only [makeDirectory] at h
  repeat' split at h
  all_goals cases h
  exact within_addDirectory t _

theorem within_ensureDirectory (t : Tree) (cwd : Location) (path : Bytes) :
    t.Within (t.ensureDirectory cwd path).2 := by
  simp only [ensureDirectory]
  split
  · next made => exact within_makeDirectory made
  · split <;> exact .refl t

/-- Making directories leaves everything where it was. -/
theorem within_makeDirectories (cwd : Location) (above : List Bytes) (t : Tree) (path : Bytes) :
    t.Within (makeDirectories cwd above t path).2 := by
  fun_induction makeDirectories cwd above t path with
  | case1 => exact .refl _
  | case2 t path => exact within_ensureDirectory t cwd path
  | case3 parent above t path hne hmissing e t' hfailed ih => simpa only [hfailed] using ih
  | case4 parent above t path hne hmissing t' hmade ih =>
    rw [hmade] at ih
    exact ih.trans (within_ensureDirectory t' cwd path)
  | case5 parent above t path _ => exact within_ensureDirectory t cwd path

/-! ## Closed trees -/

/-- The root is there, and with every entry for a directory the directory itself. -/
structure IsClosed (t : Tree) : Prop where
  root : 0 < t.directories.size
  inside : ∀ place number, t.node? place = some (.directory number) → number < t.directories.size

theorem Way.target_lt {way : Way} {size : Nat} (hroot : 0 < size) (hway : ∀ n ∈ way, n < size) :
    way.target < size := by
  cases way with
  | nil => exact hroot
  | cons number rest => exact hway number List.mem_cons_self

theorem IsClosed.descend? (ht : t.IsClosed) {way way' : Way} {location : Location}
    (h : t.descend? way location = some way') (hway : ∀ n ∈ way, n < t.directories.size) :
    ∀ n ∈ way', n < t.directories.size := by
  induction location generalizing way with
  | nil => exact Option.some.inj h ▸ hway
  | cons name rest ih =>
    simp only [Tree.descend?] at h
    split at h
    · next number hnumber =>
      exact ih h (List.forall_mem_cons.mpr ⟨ht.inside _ _ hnumber, hway⟩)
    · cases h

/-- In a closed tree a path ends in a directory that is there. -/
theorem IsClosed.leads (ht : t.IsClosed) (h : t.Leads following links here slash names e)
    (hhere : ∀ n ∈ here, n < t.directories.size) {slash' : Bool} (he : e = .entry place slash') :
    place.directory < t.directories.size := by
  induction h with
  | arrived => cases he
  | stay _ ih => exact ih hhere he
  | back _ ih => exact ih (fun n hn => hhere n (List.mem_of_mem_tail hn)) he
  | unseen _ _ =>
    cases he
    exact Way.target_lt ht.root hhere
  | last _ _ _ =>
    cases he
    exact Way.target_lt ht.root hhere
  | link _ _ _ _ ih =>
    refine ih (fun n hn => ?_) he
    split at hn
    · cases hn
    · exact hhere n hn
  | enter _ _ hnode _ ih =>
    exact ih (List.forall_mem_cons.mpr ⟨ht.inside _ _ hnode, hhere⟩) he

theorem IsClosed.locate (ht : t.IsClosed)
    (h : t.locate cwd following path = .ok (.entry place slash)) :
    place.directory < t.directories.size := by
  obtain ⟨-, start, hstart, hleads⟩ := locate_eq_ok_iff.mp h
  refine ht.leads hleads ?_ rfl
  split at hstart
  · cases hstart
    simp
  · exact ht.descend? hstart (by simp)

theorem isClosed_of_entries (hroot : 0 < t.directories.size)
    (h : ∀ entries ∈ t.directories.toList, ∀ e ∈ entries, ∀ number, e.2 = .directory number →
      number < t.directories.size) : t.IsClosed := by
  refine ⟨hroot, fun place number hnumber => ?_⟩
  have hlt := lt_of_node? hnumber
  rw [node?, entries, Array.getD_eq_getD_getElem?, Array.getElem?_eq_getElem hlt,
    Option.getD_some, List.lookup_eq_some_iff] at hnumber
  obtain ⟨before, behind, heq, -⟩ := hnumber
  refine h _ (Array.getElem_mem_toList hlt) (place.name, .directory number) ?_ number rfl
  rw [heq]
  exact List.mem_append_right _ List.mem_cons_self

theorem isClosed_empty : empty.IsClosed :=
  isClosed_of_entries (by decide) (by simp [empty])

/-- In an empty tree a file can be created at the root. -/
theorem vacant_empty :
    empty.Vacant [] (Bytes.ofText "/region") ⟨0, Bytes.ofText "region"⟩ where
  located :=
    locate_of_descend (by decide +kernel) (by decide +kernel)
      (show _ = [] ++ [Bytes.ofText "region"] by decide +kernel) (by simp) rfl (by decide +kernel)
      fun target hlink => by simp [node?, entries, empty, Way.target] at hlink
  vacant := search_eq_none_iff.mpr ⟨by decide +kernel, rfl⟩
  inside := by decide

end TraceRing.Files.Tree
