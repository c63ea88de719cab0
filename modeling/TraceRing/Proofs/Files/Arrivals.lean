import TraceRing.Proofs.Files.Walks

/-!
# Ways to directories

Names that lead to a directory are a part of every path that goes on from there. A walk that
follows them to their end arrives somewhere (`Tree.Arrives`), and whatever comes behind them is
followed from there (`Arrives.walk_append`, `Leads.split`). Names `.` are of no account on the way
(`arrives_filter_iff`).
-/

namespace TraceRing.Files.Tree

variable {t u : Tree} {following : Following} {links links' : Nat} {here way : Way} {slash : Bool}
  {names before behind : List Name} {e : Ending}

/-! ## Arriving -/

/-- How names lead to a directory, each of them followed: the number of links that could still be
followed, and the way to the directory. -/
inductive Arrives (t : Tree) : Nat → Way → List Name → Nat → Way → Prop where
  | done {links : Nat} {here : Way} : Arrives t links here [] links here
  | stay {links links' : Nat} {here way : Way} {rest : List Name}
      (h : Arrives t links here rest links' way) : Arrives t links here (dot :: rest) links' way
  | back {links links' : Nat} {here way : Way} {rest : List Name}
      (h : Arrives t links here.tail rest links' way) :
      Arrives t links here (dotDot :: rest) links' way
  | link {links links' : Nat} {here way : Way} {name : Name} {rest : List Name} {target : Bytes}
      (hname : IsPlain name) (hnode : t.node? ⟨here.target, name⟩ = some (.link target))
      (h : Arrives t links (if Path.isAbsolute target then [] else here)
        (Path.names target ++ rest) links' way) :
      Arrives t (links + 1) here (name :: rest) links' way
  | enter {links links' : Nat} {here way : Way} {name : Name} {rest : List Name} {number : Nat}
      (hname : IsPlain name) (hnode : t.node? ⟨here.target, name⟩ = some (.directory number))
      (h : Arrives t links (number :: here) rest links' way) :
      Arrives t links here (name :: rest) links' way

namespace Arrives

theorem append (h : t.Arrives links here before links' way) {links'' : Nat} {way' : Way}
    (h' : t.Arrives links' way behind links'' way') :
    t.Arrives links here (before ++ behind) links'' way' := by
  induction h with
  | done => exact h'
  | stay _ ih => exact .stay (ih h')
  | back _ ih => exact .back (ih h')
  | link hname hnode _ ih =>
    have hrest := ih h'
    rw [List.append_assoc] at hrest
    exact .link hname hnode hrest
  | enter hname hnode _ ih => exact .enter hname hnode (ih h')

/-- Names that arrive are followed one part after the other. -/
theorem split (h : t.Arrives links here names links' way) (hnames : names = before ++ behind) :
    ∃ links'' way', t.Arrives links here before links'' way' ∧
      t.Arrives links'' way' behind links' way := by
  induction h generalizing before with
  | done =>
    obtain ⟨rfl, rfl⟩ := List.append_eq_nil_iff.mp hnames.symm
    exact ⟨_, _, .done, .done⟩
  | stay h ih =>
    rcases List.cons_eq_append_iff.mp hnames with ⟨rfl, rfl⟩ | ⟨rest, rfl, hrest⟩
    · exact ⟨_, _, .done, .stay h⟩
    · obtain ⟨links'', way', hbefore, hbehind⟩ := ih hrest
      exact ⟨_, _, .stay hbefore, hbehind⟩
  | back h ih =>
    rcases List.cons_eq_append_iff.mp hnames with ⟨rfl, rfl⟩ | ⟨rest, rfl, hrest⟩
    · exact ⟨_, _, .done, .back h⟩
    · obtain ⟨links'', way', hbefore, hbehind⟩ := ih hrest
      exact ⟨_, _, .back hbefore, hbehind⟩
  | @link _ _ _ _ _ _ target hname hnode h ih =>
    rcases List.cons_eq_append_iff.mp hnames with ⟨rfl, rfl⟩ | ⟨rest, rfl, rfl⟩
    · exact ⟨_, _, .done, .link hname hnode h⟩
    · obtain ⟨links'', way', hbefore, hbehind⟩ := ih (List.append_assoc ..).symm
      exact ⟨_, _, .link hname hnode hbefore, hbehind⟩
  | enter hname hnode h ih =>
    rcases List.cons_eq_append_iff.mp hnames with ⟨rfl, rfl⟩ | ⟨rest, rfl, hrest⟩
    · exact ⟨_, _, .done, .enter hname hnode h⟩
    · obtain ⟨links'', way', hbefore, hbehind⟩ := ih hrest
      exact ⟨_, _, .enter hname hnode hbefore, hbehind⟩

/-- What comes behind names that arrive is followed from there. -/
theorem walk_append (h : t.Arrives links here before links' way) (hbehind : behind ≠ []) :
    t.walk following links here slash (before ++ behind) =
      t.walk following links' way slash behind := by
  induction h with
  | done => rfl
  | stay _ ih => rw [List.cons_append, walk, if_pos rfl, ih]
  | back _ ih => rw [List.cons_append, walk, if_neg (by decide), if_pos rfl, ih]
  | link hname hnode _ ih =>
    rw [List.cons_append, walk, if_neg hname.ne_dot, if_neg hname.ne_dotDot,
      if_neg (by simp [hbehind]), if_neg (Nat.not_lt.mpr hname.length_le)]
    simp only [hnode, List.append_eq_nil_iff, hbehind, and_false, decide_false, Bool.false_and,
      Bool.or_false, ← ih, List.append_assoc]
  | enter hname hnode _ ih =>
    rw [List.cons_append, walk_directory hname hnode (by simp [hbehind]), ih]

/-- Names that arrive lead to the directory, be it that the last of them is the place of it. -/
theorem leads (h : t.Arrives links here names links' way) (slash : Bool) :
    ∃ e, t.Leads .always links here slash names e ∧
      (e = .directory way.target ∨ ∃ place slash, e = .entry place slash ∧
        place.name.length ≤ nameLimit ∧ t.node? place = some (.directory way.target)) := by
  induction h generalizing slash with
  | done => exact ⟨_, .arrived, .inl rfl⟩
  | stay _ ih =>
    obtain ⟨e, hleads, he⟩ := ih slash
    exact ⟨e, .stay hleads, he⟩
  | back _ ih =>
    obtain ⟨e, hleads, he⟩ := ih slash
    exact ⟨e, .back hleads, he⟩
  | @link _ _ _ _ _ rest target hname hnode _ ih =>
    obtain ⟨e, hleads, he⟩ := ih (slash || decide (rest = []) && Path.endsWithSlash target)
    exact ⟨e, .link hname (fun hlast => Bool.noConfusion hlast.2) hnode hleads, he⟩
  | @enter _ _ _ _ _ rest _ hname hnode h ih =>
    by_cases hrest : rest = []
    · subst hrest
      cases h
      refine ⟨_, .last hname rfl ?_, .inr ⟨_, _, rfl, hname.length_le, hnode⟩⟩
      simp [hnode]
    · obtain ⟨e, hleads, he⟩ := ih slash
      exact ⟨e, .enter hname hrest hnode hleads, he⟩

end Arrives

theorem arrives_append_iff : t.Arrives links here (before ++ behind) links' way ↔
    ∃ links'' way', t.Arrives links here before links'' way' ∧
      t.Arrives links'' way' behind links' way :=
  ⟨fun h => h.split rfl, fun ⟨_, _, hbefore, hbehind⟩ => hbefore.append hbehind⟩

theorem arrives_cons_iff {name : Name} : t.Arrives links here (name :: names) links' way ↔
    ∃ links'' way', t.Arrives links here [name] links'' way' ∧
      t.Arrives links'' way' names links' way := by
  rw [← arrives_append_iff, List.singleton_append]

theorem arrives_dot_iff : t.Arrives links here (dot :: names) links' way ↔
    t.Arrives links here names links' way := by
  refine ⟨fun h => ?_, .stay⟩
  generalize hnames : dot :: names = all at h
  cases h with
  | done => cases hnames
  | stay h =>
    cases hnames
    exact h
  | back h => cases hnames
  | link hname _ _ =>
    cases hnames
    exact absurd rfl hname.ne_dot
  | enter hname _ _ =>
    cases hnames
    exact absurd rfl hname.ne_dot

/-- Names `.` may be left out. -/
theorem arrives_filter_iff : t.Arrives links here (names.filter (· ≠ dot)) links' way ↔
    t.Arrives links here names links' way := by
  induction names generalizing links here with
  | nil => rfl
  | cons name rest ih =>
    by_cases hname : name = dot
    · subst hname
      rw [List.filter_cons_of_neg (by simp), arrives_dot_iff, ih]
    · rw [List.filter_cons_of_pos (by simpa using hname), arrives_cons_iff, arrives_cons_iff]
      simp only [ih]

/-! ## Arriving on the way -/

namespace Leads

/-- A path leads somewhere if its first names arrive and the others lead on from there. -/
theorem split (h : t.Leads following links here slash names e)
    (hnames : names = before ++ behind) (hbehind : behind ≠ []) :
    ∃ links' way, t.Arrives links here before links' way ∧
      t.Leads following links' way slash behind e := by
  induction h generalizing before with
  | arrived => exact absurd (List.append_eq_nil_iff.mp hnames.symm).2 hbehind
  | stay h ih =>
    rcases List.cons_eq_append_iff.mp hnames with ⟨rfl, rfl⟩ | ⟨rest, rfl, hrest⟩
    · exact ⟨_, _, .done, .stay h⟩
    · obtain ⟨links', way, hbefore, hleads⟩ := ih hrest
      exact ⟨_, _, .stay hbefore, hleads⟩
  | back h ih =>
    rcases List.cons_eq_append_iff.mp hnames with ⟨rfl, rfl⟩ | ⟨rest, rfl, hrest⟩
    · exact ⟨_, _, .done, .back h⟩
    · obtain ⟨links', way, hbefore, hleads⟩ := ih hrest
      exact ⟨_, _, .back hbefore, hleads⟩
  | unseen hname hfollowing =>
    rcases List.cons_eq_append_iff.mp hnames with ⟨rfl, rfl⟩ | ⟨rest, rfl, hrest⟩
    · exact ⟨_, _, .done, .unseen hname hfollowing⟩
    · exact absurd (List.append_eq_nil_iff.mp hrest.symm).2 hbehind
  | last hname hfollowing hnode =>
    rcases List.cons_eq_append_iff.mp hnames with ⟨rfl, rfl⟩ | ⟨rest, rfl, hrest⟩
    · exact ⟨_, _, .done, .last hname hfollowing hnode⟩
    · exact absurd (List.append_eq_nil_iff.mp hrest.symm).2 hbehind
  | link hname hfollowing hnode h ih =>
    rcases List.cons_eq_append_iff.mp hnames with ⟨rfl, rfl⟩ | ⟨rest, rfl, rfl⟩
    · exact ⟨_, _, .done, .link hname hfollowing hnode h⟩
    · obtain ⟨links', way, hbefore, hleads⟩ := ih (List.append_assoc ..).symm
      simp only [List.append_eq_nil_iff, hbehind, and_false, decide_false, Bool.false_and,
        Bool.or_false] at hleads
      exact ⟨_, _, .link hname hnode hbefore, hleads⟩
  | enter hname hrest hnode h ih =>
    rcases List.cons_eq_append_iff.mp hnames with ⟨rfl, rfl⟩ | ⟨rest, rfl, hrest'⟩
    · exact ⟨_, _, .done, .enter hname hrest hnode h⟩
    · obtain ⟨links', way, hbefore, hleads⟩ := ih hrest'
      exact ⟨_, _, .enter hname hnode hbefore, hleads⟩

/-- Where the last name is not followed a path ends at the place it names, in the directory that
the names before it lead to. -/
theorem exists_of_entry {place : Place} {slash' : Bool}
    (h : t.Leads .never links here slash names e) (he : e = .entry place slash') :
    ∃ before name links' way, names = before ++ [name] ∧ name ≠ dot ∧ name ≠ dotDot ∧
      t.Arrives links here before links' way ∧ place = ⟨way.target, name⟩ := by
  subst he
  rcases List.eq_nil_or_concat names with rfl | ⟨before, name, rfl⟩
  · cases h
  · rw [List.concat_eq_append] at h ⊢
    obtain ⟨links', way, hbefore, hlast⟩ := h.split rfl (List.cons_ne_nil name [])
    generalize hone : [name] = one at hlast
    cases hlast with
    | stay h =>
      cases hone
      cases h
    | back h =>
      cases hone
      cases h
    | unseen hname _ =>
      cases hone
      exact ⟨_, _, _, _, rfl, hname.1, hname.2, hbefore, rfl⟩
    | last _ hfollowing _ => cases hfollowing
    | link _ hfollowing _ _ =>
      cases hone
      exact absurd ⟨rfl, rfl⟩ hfollowing
    | enter _ hrest _ _ =>
      cases hone
      exact absurd rfl hrest

/-- What a path leads to if it is a directory, its names lead to. -/
theorem arrives (h : t.Leads .always links here slash names e) {number : Nat}
    (he : e = .directory number ∨
      ∃ place slash, e = .entry place slash ∧ t.node? place = some (.directory number)) :
    ∃ links' way, t.Arrives links here names links' way ∧ way.target = number := by
  induction h with
  | arrived =>
    rcases he with he | ⟨_, _, he, -⟩
    · exact ⟨_, _, .done, Ending.directory.inj he⟩
    · cases he
  | stay _ ih =>
    obtain ⟨links', way, harrives, htarget⟩ := ih he
    exact ⟨_, _, .stay harrives, htarget⟩
  | back _ ih =>
    obtain ⟨links', way, harrives, htarget⟩ := ih he
    exact ⟨_, _, .back harrives, htarget⟩
  | unseen _ hfollowing => cases hfollowing
  | last hname _ _ =>
    rcases he with he | ⟨_, _, he, hdirectory⟩
    · cases he
    · cases he
      exact ⟨_, _, .enter hname hdirectory .done, rfl⟩
  | link hname _ hlink _ ih =>
    obtain ⟨links', way, harrives, htarget⟩ := ih he
    exact ⟨_, _, .link hname hlink harrives, htarget⟩
  | enter hname _ hdirectory _ ih =>
    obtain ⟨links', way, harrives, htarget⟩ := ih he
    exact ⟨_, _, .enter hname hdirectory harrives, htarget⟩

end Leads

/-! ## Paths to directories -/

variable {cwd : Location} {path : Bytes} {number : Nat}

/-- A path that a system call takes. -/
structure IsPath (path : Bytes) : Prop where
  no_nul : path.contains 0 = false
  ne_nil : path ≠ []
  length_lt : path.length < pathLimit

instance (path : Bytes) : Decidable (IsPath path) :=
  decidable_of_iff (path.contains 0 = false ∧ path ≠ [] ∧ path.length < pathLimit)
    ⟨fun ⟨hnul, hne, hlt⟩ => ⟨hnul, hne, hlt⟩, fun h => ⟨h.no_nul, h.ne_nil, h.length_lt⟩⟩

/-- The directory where a path starts. -/
def start? (t : Tree) (cwd : Location) (path : Bytes) : Option Way :=
  if Path.isAbsolute path then some [] else t.descend? [] cwd

theorem locate_iff : t.locate cwd following path = .ok e ↔
    IsPath path ∧ ∃ start, t.start? cwd path = some start ∧
      t.Leads following linkLimit start (Path.endsWithSlash path) (Path.names path) e := by
  rw [locate_eq_ok_iff, start?]
  exact and_congr_left fun _ => ⟨fun h => ⟨h.1, h.2.1, h.2.2⟩, fun h => ⟨h.1, h.2, h.3⟩⟩

theorem find_directory_iff : t.find cwd path = .ok (.directory number) ↔
    IsPath path ∧ ∃ start, t.start? cwd path = some start ∧
      ∃ links' way, t.Arrives linkLimit start (Path.names path) links' way ∧
        way.target = number := by
  rw [find_eq_ok_iff]
  constructor
  · rintro (⟨number', hlocate, hn⟩ | ⟨place, slash, hlocate, hsearch, -⟩)
    · obtain ⟨hpath, start, hstart, hleads⟩ := locate_iff.mp hlocate
      cases hn
      exact ⟨hpath, start, hstart, hleads.arrives (.inl rfl)⟩
    · obtain ⟨hpath, start, hstart, hleads⟩ := locate_iff.mp hlocate
      exact ⟨hpath, start, hstart,
        hleads.arrives (.inr ⟨_, _, rfl, (search_eq_some_iff.mp hsearch).2⟩)⟩
  · rintro ⟨hpath, start, hstart, links', way, harrives, rfl⟩
    obtain ⟨e, hleads, he⟩ := harrives.leads (Path.endsWithSlash path)
    have hlocate := locate_iff.mpr ⟨hpath, start, hstart, hleads⟩
    rcases he with rfl | ⟨place, slash, rfl, hname, hnode⟩
    · exact .inl ⟨_, hlocate, rfl⟩
    · exact .inr ⟨place, slash, hlocate, search_eq_some_iff.mpr ⟨hname, hnode⟩,
        fun _ => ⟨_, rfl⟩⟩

theorem isDirectory_iff : t.isDirectory cwd path = true ↔
    ∃ number, t.find cwd path = .ok (.directory number) := by
  rw [isDirectory]
  constructor
  · intro h
    split at h
    · next number hfind => exact ⟨number, hfind⟩
    · cases h
  · rintro ⟨number, hfind⟩
    rw [hfind]

end TraceRing.Files.Tree
