import Mathlib.Data.List.Basic
import TraceRing.Files.Path

/-!
# Names and paths

What the names of a path have to do with its bytes. Joined paths have the names of both
(`Path.names_join`). The directories above a path are named by its first names, each of them is
above those that are nearer to the path, and none is longer than the path
(`Path.pairwise_ancestors`).
-/

namespace TraceRing.Files

/-! ## Splitting and joining -/

theorem splitNames_ne_nil (bs : Bytes) : splitNames bs ≠ [] := by
  cases bs with
  | nil => exact List.cons_ne_nil _ _
  | cons b rest =>
    rw [splitNames]
    split
    · exact List.cons_ne_nil _ _
    · split <;> exact List.cons_ne_nil _ _

theorem splitNames_slash (bs : Bytes) : splitNames (slash :: bs) = [] :: splitNames bs :=
  if_pos rfl

theorem splitNames_cons {b : UInt8} (hb : b ≠ slash) {bs : Bytes} {name : Name}
    {names : List Name} (h : splitNames bs = name :: names) :
    splitNames (b :: bs) = (b :: name) :: names := by
  rw [splitNames, if_neg hb, h]

/-- A slash separates what is before it from what is behind it. -/
theorem splitNames_append (before behind : Bytes) :
    splitNames (before ++ slash :: behind) = splitNames before ++ splitNames behind := by
  induction before with
  | nil => exact splitNames_slash behind
  | cons b rest ih =>
    rw [List.cons_append]
    by_cases hb : b = slash
    · subst hb
      rw [splitNames_slash, splitNames_slash, ih, List.cons_append]
    · obtain ⟨name, names, hrest⟩ := List.exists_cons_of_ne_nil (splitNames_ne_nil rest)
      rw [hrest, List.cons_append] at ih
      rw [splitNames_cons hb ih, splitNames_cons hb hrest, List.cons_append]

theorem splitNames_of_notMem {name : Name} (h : slash ∉ name) : splitNames name = [name] := by
  induction name with
  | nil => rfl
  | cons b rest ih =>
    obtain ⟨hb, hrest⟩ := List.ne_and_not_mem_of_not_mem_cons h
    exact splitNames_cons hb.symm (ih hrest)

theorem notMem_of_mem_splitNames {bs : Bytes} {name : Name} (h : name ∈ splitNames bs) :
    slash ∉ name := by
  induction bs generalizing name with
  | nil =>
    rw [List.mem_singleton.mp h]
    exact List.not_mem_nil
  | cons b rest ih =>
    by_cases hb : b = slash
    · subst hb
      rw [splitNames_slash] at h
      rcases List.mem_cons.mp h with rfl | hmem
      · exact List.not_mem_nil
      · exact ih hmem
    · obtain ⟨first, names, hrest⟩ := List.exists_cons_of_ne_nil (splitNames_ne_nil rest)
      rw [splitNames_cons hb hrest] at h
      rw [hrest] at ih
      rcases List.mem_cons.mp h with rfl | hmem
      · exact List.not_mem_cons_of_ne_of_not_mem (Ne.symm hb) (ih List.mem_cons_self)
      · exact ih (List.mem_cons_of_mem _ hmem)

theorem joinNames_cons {names : List Name} (h : names ≠ []) (name : Name) :
    joinNames (name :: names) = name ++ slash :: joinNames names := by
  cases names with
  | nil => exact absurd rfl h
  | cons => rfl

theorem joinNames_splitNames (bs : Bytes) : joinNames (splitNames bs) = bs := by
  induction bs with
  | nil => rfl
  | cons b rest ih =>
    by_cases hb : b = slash
    · subst hb
      rw [splitNames_slash, joinNames_cons (splitNames_ne_nil rest), ih, List.nil_append]
    · obtain ⟨name, names, hrest⟩ := List.exists_cons_of_ne_nil (splitNames_ne_nil rest)
      rw [splitNames_cons hb hrest]
      rw [hrest] at ih
      cases names with
      | nil => exact congrArg (b :: ·) ih
      | cons => exact congrArg (b :: ·) ih

theorem splitNames_joinNames {names : List Name} (hne : names ≠ [])
    (hnames : ∀ name ∈ names, slash ∉ name) : splitNames (joinNames names) = names := by
  induction names with
  | nil => exact absurd rfl hne
  | cons name rest ih =>
    obtain ⟨hname, hrest⟩ := List.forall_mem_cons.mp hnames
    by_cases hlast : rest = []
    · subst hlast
      exact splitNames_of_notMem hname
    · rw [joinNames_cons hlast, splitNames_append, splitNames_of_notMem hname, ih hlast hrest,
        List.singleton_append]

/-- Fewer names, fewer bytes. -/
theorem sublist_joinNames {few many : List Name} (h : few.Sublist many) :
    (joinNames few).Sublist (joinNames many) := by
  induction h with
  | slnil => exact List.Sublist.refl _
  | @cons few many name h ih =>
    by_cases hmany : many = []
    · subst hmany
      rw [List.sublist_nil.mp h]
      exact List.nil_sublist _
    · rw [joinNames_cons hmany]
      exact (ih.cons slash).trans (List.sublist_append_right _ _)
  | @cons_cons few many name h ih =>
    by_cases hfew : few = []
    · subst hfew
      by_cases hmany : many = []
      · subst hmany
        exact List.Sublist.refl _
      · rw [joinNames_cons hmany]
        exact List.sublist_append_left _ _
    · have hmany : many ≠ [] := fun hnil => hfew (List.sublist_nil.mp (hnil ▸ h))
      rw [joinNames_cons hfew, joinNames_cons hmany]
      exact List.Sublist.append_left (ih.cons_cons slash) name

namespace Path

/-! ## The names of a path -/

theorem mem_names_iff {path : Bytes} {name : Name} :
    name ∈ names path ↔ name ∈ splitNames path ∧ name ≠ [] := by
  simp only [names, List.mem_filter, ne_eq, decide_eq_true_eq]

theorem notMem_of_mem_names {path : Bytes} {name : Name} (h : name ∈ names path) :
    slash ∉ name :=
  notMem_of_mem_splitNames (mem_names_iff.mp h).1

@[simp] theorem names_slash (bs : Bytes) : names (slash :: bs) = names bs := by
  simp [names, splitNames_slash]

theorem names_append (before behind : Bytes) :
    names (before ++ slash :: behind) = names before ++ names behind := by
  rw [names, splitNames_append, List.filter_append]
  rfl

theorem names_of_notMem {name : Name} (hne : name ≠ []) (h : slash ∉ name) :
    names name = [name] := by
  simp [names, splitNames_of_notMem h, hne]

theorem names_joinNames {parts : List Name} (hparts : ∀ name ∈ parts, name ≠ [] ∧ slash ∉ name) :
    names (joinNames parts) = parts := by
  by_cases hne : parts = []
  · subst hne
    rfl
  · rw [names, splitNames_joinNames hne fun name hname => (hparts name hname).2]
    exact List.filter_eq_self.mpr fun name hname => decide_eq_true (hparts name hname).1

theorem isAbsolute_slash (bs : Bytes) : isAbsolute (slash :: bs) = true :=
  rfl

theorem isAbsolute_append {before : Bytes} (h : before ≠ []) (behind : Bytes) :
    isAbsolute (before ++ behind) = isAbsolute before := by
  rw [isAbsolute, isAbsolute, List.head?_append_of_ne_nil before h]

theorem isAbsolute_of_notMem {name : Name} (h : slash ∉ name) : isAbsolute name = false := by
  cases name with
  | nil => rfl
  | cons b rest =>
    exact beq_eq_false_iff_ne.mpr fun heq =>
      h (List.mem_cons.mpr (.inl (Option.some.inj heq).symm))

theorem exists_of_endsWithSlash {path : Bytes} (h : endsWithSlash path = true) :
    ∃ before, path = before ++ [slash] :=
  List.getLast?_eq_some_iff.mp (beq_iff_eq.mp h)

/-! ## Joined paths -/

variable {directory : Bytes} {name : Name}

/-- What comes behind a directory in the path of an entry. -/
theorem join_eq (hdirectory : directory ≠ []) (hname : slash ∉ name) :
    join directory name =
      if endsWithSlash directory = true then directory ++ name
      else directory ++ slash :: name := by
  rw [join, isAbsolute_of_notMem hname]
  simp only [hdirectory, decide_false, Bool.false_or, Bool.false_eq_true, if_false]

theorem names_join (hdirectory : directory ≠ []) (hne : name ≠ []) (hname : slash ∉ name) :
    names (join directory name) = names directory ++ [name] := by
  rw [join_eq hdirectory hname, ← names_of_notMem hne hname]
  split
  · next hslash =>
    obtain ⟨before, rfl⟩ := exists_of_endsWithSlash hslash
    have hnone : names [] = [] := rfl
    rw [List.append_assoc, List.singleton_append, names_append, names_append, hnone,
      List.append_nil, names_of_notMem hne hname]
  · rw [names_append, names_of_notMem hne hname]

theorem isAbsolute_join (hdirectory : directory ≠ []) (hname : slash ∉ name) :
    isAbsolute (join directory name) = isAbsolute directory := by
  rw [join_eq hdirectory hname]
  split <;> exact isAbsolute_append hdirectory _

theorem endsWithSlash_join (hdirectory : directory ≠ []) (hne : name ≠ []) (hname : slash ∉ name) :
    endsWithSlash (join directory name) = false := by
  have hlast : ∀ before, endsWithSlash (before ++ name) = false := by
    intro before
    rw [endsWithSlash, List.getLast?_append_of_ne_nil _ hne]
    exact beq_eq_false_iff_ne.mpr fun heq => hname (List.mem_of_getLast? heq)
  rw [join_eq hdirectory hname]
  split
  · exact hlast directory
  · rw [← List.singleton_append, ← List.append_assoc]
    exact hlast (directory ++ [slash])

theorem contains_join (hdirectory : directory ≠ []) (hname : slash ∉ name)
    (hnul : directory.contains 0 = false) (hnul' : name.contains 0 = false) :
    (join directory name).contains 0 = false := by
  rw [join_eq hdirectory hname]
  simp only [List.contains_eq_mem, decide_eq_false_iff_not] at hnul hnul' ⊢
  have hslash : (0 : UInt8) ≠ slash := by decide
  split <;> simp [hnul, hnul', hslash]

/-! ## The directories above a path -/

/-- The directory that the first names of a path lead to. -/
def above (path : Bytes) (n : Nat) : Bytes :=
  (if isAbsolute path then [slash] else []) ++ joinNames ((significant path).take n)

theorem above_of_absolute {path : Bytes} (h : isAbsolute path = true) (n : Nat) :
    above path n = slash :: joinNames ((significant path).take n) := by
  rw [above, if_pos h, List.singleton_append]

theorem above_of_relative {path : Bytes} (h : isAbsolute path = false) (n : Nat) :
    above path n = joinNames ((significant path).take n) := by
  rw [above, h, if_neg (by simp), List.nil_append]

theorem ancestors_eq (path : Bytes) :
    ancestors path = (List.range (significant path).length).reverse.map (above path) :=
  rfl

/-- A path is written as one that goes on behind another. What `.` is left out of either is of no
account. -/
structure Precedes (first path : Bytes) : Prop where
  ne_nil : first ≠ []
  isAbsolute_eq : isAbsolute first = isAbsolute path
  sublist : first.Sublist path
  beyond : ∃ rest, rest ≠ [] ∧
    (names path).filter (· ≠ dot) = (names first).filter (· ≠ dot) ++ rest

variable {path : Bytes} {n : Nat}

theorem sublist_significant (path : Bytes) : (significant path).Sublist (names path) := by
  rw [significant]
  cases names path with
  | nil => exact List.Sublist.refl _
  | cons first rest =>
    simp only
    split
    · exact List.filter_sublist
    · exact List.Sublist.cons_cons first List.filter_sublist

theorem filter_significant (path : Bytes) :
    (significant path).filter (· ≠ dot) = (names path).filter (· ≠ dot) := by
  rw [significant]
  cases names path with
  | nil => rfl
  | cons first rest =>
    simp only
    split
    · simp only [List.filter_filter, Bool.and_self]
    · simp only [List.filter_cons, List.filter_filter, Bool.and_self]

theorem of_mem_significant {name : Name} (h : name ∈ significant path) :
    name ≠ [] ∧ slash ∉ name := by
  have hmem := (sublist_significant path).subset h
  exact ⟨(mem_names_iff.mp hmem).2, notMem_of_mem_names hmem⟩

theorem names_above (path : Bytes) (n : Nat) :
    names (above path n) = (significant path).take n := by
  have hparts : names (joinNames ((significant path).take n)) = (significant path).take n :=
    names_joinNames fun name hname => of_mem_significant (List.mem_of_mem_take hname)
  cases habsolute : isAbsolute path with
  | true => rw [above_of_absolute habsolute, names_slash, hparts]
  | false => rw [above_of_relative habsolute, hparts]

theorem sublist_above_of_le {m : Nat} (h : n ≤ m) : (above path n).Sublist (above path m) :=
  (sublist_joinNames (List.take_sublist_take_left h)).append_left _

theorem sublist_above (path : Bytes) (n : Nat) : (above path n).Sublist path := by
  have hjoined : ∀ bs, (names path).Sublist (splitNames bs) →
      (joinNames ((significant path).take n)).Sublist bs := by
    intro bs hnames
    have hparts := (List.take_sublist n _).trans ((sublist_significant path).trans hnames)
    exact joinNames_splitNames bs ▸ sublist_joinNames hparts
  cases habsolute : isAbsolute path with
  | true =>
    obtain ⟨rest, rfl⟩ : ∃ rest, path = slash :: rest :=
      List.head?_eq_some_iff.mp (beq_iff_eq.mp habsolute)
    rw [above_of_absolute habsolute]
    have hnames : (names (slash :: rest)).Sublist (splitNames rest) := by
      rw [names_slash]
      exact List.filter_sublist
    exact (hjoined rest hnames).cons_cons slash
  | false =>
    rw [above_of_relative habsolute]
    exact hjoined path List.filter_sublist

theorem isAbsolute_above (h : above path n ≠ []) :
    isAbsolute (above path n) = isAbsolute path := by
  cases habsolute : isAbsolute path with
  | true => rw [above_of_absolute habsolute, isAbsolute_slash]
  | false =>
    rw [above_of_relative habsolute] at h ⊢
    cases hparts : (significant path).take n with
    | nil => exact absurd (congrArg joinNames hparts) h
    | cons first rest =>
      have hmem : first ∈ significant path :=
        List.mem_of_mem_take (hparts ▸ List.mem_cons_self)
      obtain ⟨hfirst, hslash⟩ := of_mem_significant hmem
      by_cases hlast : rest = []
      · subst hlast
        exact isAbsolute_of_notMem hslash
      · rw [joinNames_cons hlast, isAbsolute_append hfirst, isAbsolute_of_notMem hslash]

/-- Behind the names that lead to a directory above a path come no names `.`. -/
theorem ne_dot_of_mem_drop (h : above path n ≠ []) {name : Name}
    (hname : name ∈ (significant path).drop n) : name ≠ dot := by
  have hfiltered : ∀ {n : Nat} {parts : List Name},
      name ∈ (parts.filter fun name => name ≠ dot).drop n → name ≠ dot := fun hmem =>
    of_decide_eq_true (List.mem_filter.mp (List.mem_of_mem_drop hmem)).2
  cases hnames : names path with
  | nil => simp [significant, hnames] at hname
  | cons first rest =>
    cases habsolute : isAbsolute path with
    | true =>
      simp only [significant, hnames, habsolute, if_true] at hname
      exact hfiltered hname
    | false =>
      cases n with
      | zero => exact absurd (above_of_relative habsolute 0) h
      | succ n =>
        simp only [significant, hnames, habsolute, Bool.false_eq_true, if_false,
          List.drop_succ_cons] at hname
        exact hfiltered hname

/-- A path that goes on behind the first names of another comes after the directory that these
lead to. -/
theorem precedes_of_take {m : Nat} {other : Bytes} (h : above path n ≠ []) (hlt : n < m)
    (hm : m ≤ (significant path).length) (habsolute : isAbsolute other = isAbsolute path)
    (hsublist : (above path n).Sublist other)
    (hnames : (names other).filter (· ≠ dot) =
      ((significant path).take m).filter (· ≠ dot)) : Precedes (above path n) other where
  ne_nil := h
  isAbsolute_eq := (isAbsolute_above h).trans habsolute.symm
  sublist := hsublist
  beyond := by
    have hsplit : (significant path).take m =
        (significant path).take n ++ ((significant path).drop n).take (m - n) := by
      rw [← List.take_add, Nat.add_sub_cancel' (Nat.le_of_lt hlt)]
    refine ⟨((significant path).drop n).take (m - n), ?_, ?_⟩
    · refine List.ne_nil_of_length_pos ?_
      rw [List.length_take, List.length_drop]
      omega
    · rw [hnames, hsplit, List.filter_append, names_above]
      congr 1
      exact List.filter_eq_self.mpr fun name hname =>
        decide_eq_true (ne_dot_of_mem_drop h (List.mem_of_mem_take hname))

/-- The directories above a path come before it, and each before those that are nearer to it. -/
theorem pairwise_ancestors (path : Bytes) :
    (path :: ancestors path).Pairwise fun other first => first ≠ [] → Precedes first other := by
  rw [ancestors_eq, List.pairwise_cons]
  constructor
  · intro first hfirst hne
    obtain ⟨n, hn, rfl⟩ := List.mem_map.mp hfirst
    have hlt : n < (significant path).length := List.mem_range.mp (List.mem_reverse.mp hn)
    refine precedes_of_take hne hlt (Nat.le_refl _) rfl (sublist_above path n) ?_
    rw [List.take_length, filter_significant]
  · rw [List.pairwise_map, List.pairwise_reverse]
    refine List.pairwise_lt_range.imp_of_mem fun {n m} _ hm hlt hne => ?_
    have hother : above path m ≠ [] := fun hnil =>
      hne (List.sublist_nil.mp (hnil ▸ sublist_above_of_le (Nat.le_of_lt hlt)))
    refine precedes_of_take hne hlt (Nat.le_of_lt (List.mem_range.mp hm))
      (isAbsolute_above hother) (sublist_above_of_le (Nat.le_of_lt hlt)) ?_
    rw [names_above]

end Path

end TraceRing.Files
