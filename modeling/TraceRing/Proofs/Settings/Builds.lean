import TraceRing.Proofs.Settings.Numerals

/-!
# Builds

A build takes the default of a parameter whose variable is not set, and otherwise the number that
the variable denotes, if the parameter admits it (`Settings.Parameter.Takes`). It goes over the
parameters in their order, and the first that takes nothing ends it with a refusal that names its
variable. The generated text of a build that succeeds defines each constant in a line of its own
(`Settings.definitions_render`). `Settings.configure_settles` puts the two outcomes together.
-/

namespace TraceRing.Settings

/-! ## Variables -/

theorem textOf?_ofText (text : String) : textOf? (Bytes.ofText text) = some text := by
  have hbytes : (⟨(Bytes.ofText text).toArray⟩ : ByteArray) = text.toByteArray := rfl
  rw [textOf?, hbytes, String.fromUTF8?, dif_pos text.isValidUTF8]
  rfl

/-- A variable is set to a text, or it is not set. -/
def IsSetTo (env : Environment) (constant : String) (raw : Option String) : Prop :=
  env.lookup (variableOf constant) = raw.map Bytes.ofText

theorem IsSetTo.lookup_eq {env : Environment} {constant : String} {raw : Option String}
    (h : IsSetTo env constant raw) : lookup env (variableOf constant) = raw := by
  rw [lookup, h]
  cases raw with
  | none => rfl
  | some text => exact textOf?_ofText text

/-! ## One parameter -/

theorem isPowerOfTwo_iff {n : Nat} : isPowerOfTwo n = true ↔ ∃ k, n = 2 ^ k := by
  rw [isPowerOfTwo, beq_iff_eq]
  constructor
  · intro h
    exact ⟨n.log2, h⟩
  · rintro ⟨k, rfl⟩
    rw [Nat.log2_two_pow]

/-- The variable that a refusal is about. -/
def Refusal.key : Refusal → String
  | notANumber key _ | belowMinimum key .. | notAPowerOfTwo key _ | badRegionName key _ => key

/-- A refusal is told under the name of its variable. -/
theorem Refusal.message_eq (r : Refusal) : ∃ rest, r.message = r.key ++ (": " ++ rest) := by
  have hquote : ∀ rest : String, ": '" ++ rest = ": " ++ ("'" ++ rest) := by
    intro rest
    rw [← String.append_assoc]
    rfl
  cases r with
  | notANumber _ raw =>
    refine ⟨"'" ++ (raw ++ "' is not an unsigned integer"), ?_⟩
    simp only [message, Refusal.key, String.append_assoc, ← hquote]
  | belowMinimum _ value minimum =>
    refine ⟨toString value ++ (" is below the minimum of " ++ toString minimum), ?_⟩
    simp only [message, Refusal.key, String.append_assoc]
  | notAPowerOfTwo _ value =>
    refine ⟨toString value ++ " must be a power of two", ?_⟩
    simp only [message, Refusal.key, String.append_assoc]
  | badRegionName _ raw =>
    refine ⟨"'" ++ (raw ++ "' is not a valid region name"), ?_⟩
    simp only [message, Refusal.key, String.append_assoc, ← hquote]

namespace Parameter

/-- The numbers that a parameter may have. -/
structure Admits (p : Parameter) (n : Nat) : Prop where
  minimum : p.minimum ≤ n
  power : p.powerOfTwo = true → ∃ k, n = 2 ^ k

/-- The number that a parameter takes from its variable, if it takes one. -/
def Takes (p : Parameter) : Option String → Nat → Prop
  | none, n => n = p.default
  | some raw, n => Denotes raw n ∧ p.Admits n

/-- Every default passes its own check. -/
theorem admits_default {p : Parameter} (hp : p ∈ parameters) : p.Admits p.default := by
  have hall : ∀ q ∈ parameters,
      q.minimum ≤ q.default ∧ (q.powerOfTwo = true → isPowerOfTwo q.default = true) := by
    decide
  obtain ⟨hminimum, hpower⟩ := hall p hp
  exact ⟨hminimum, fun h => isPowerOfTwo_iff.mp (hpower h)⟩

/-- The check of a number that was read, or of the default. -/
def check (p : Parameter) (n : Nat) : Except Refusal Nat :=
  if n < p.minimum then .error (.belowMinimum (variableOf p.constant) n p.minimum)
  else if p.powerOfTwo ∧ isPowerOfTwo n = false then
    .error (.notAPowerOfTwo (variableOf p.constant) n)
  else .ok n

theorem check_eq_ok_iff {p : Parameter} {n m : Nat} : p.check n = .ok m ↔ m = n ∧ p.Admits n := by
  simp only [check]
  split
  · next hbelow =>
    refine iff_of_false (by simp) fun h => ?_
    exact Nat.not_le_of_lt hbelow h.2.minimum
  · next hminimum =>
    split
    · next hodd =>
      refine iff_of_false (by simp) fun h => ?_
      rw [isPowerOfTwo_iff.mpr (h.2.power hodd.1)] at hodd
      exact Bool.noConfusion hodd.2
    · next heven =>
      constructor
      · intro h
        cases h
        refine ⟨rfl, Nat.le_of_not_lt hminimum, fun hpower => isPowerOfTwo_iff.mp ?_⟩
        exact Bool.of_not_eq_false fun hodd => heven ⟨hpower, hodd⟩
      · rintro ⟨rfl, -⟩
        rfl

theorem key_of_check {p : Parameter} {n : Nat} {r : Refusal} (h : p.check n = .error r) :
    r.key = variableOf p.constant := by
  simp only [check] at h
  split at h
  · cases h
    rfl
  · split at h
    · cases h
      rfl
    · cases h

theorem value_some (p : Parameter) (raw : String) :
    p.value (some raw) = match readNumber raw with
      | none => .error (.notANumber (variableOf p.constant) raw)
      | some n => p.check n :=
  rfl

/-- A parameter has the value that it takes. -/
theorem value_eq_ok_iff {p : Parameter} (hp : p ∈ parameters) {raw : Option String} {n : Nat} :
    p.value raw = .ok n ↔ p.Takes raw n := by
  cases raw with
  | none =>
    have hvalue : p.value none = p.check p.default := rfl
    rw [hvalue, check_eq_ok_iff]
    exact and_iff_left (admits_default hp)
  | some raw =>
    rw [value_some, Takes, ← readNumber_eq_some_iff]
    cases readNumber raw with
    | none => simp
    | some m =>
      simp only [check_eq_ok_iff, Option.some.injEq]
      constructor
      · rintro ⟨rfl, hadmits⟩
        exact ⟨rfl, hadmits⟩
      · rintro ⟨rfl, hadmits⟩
        exact ⟨rfl, hadmits⟩

/-- Whatever a parameter is refused for, its variable is named. -/
theorem key_of_value {p : Parameter} {raw : Option String} {r : Refusal}
    (h : p.value raw = .error r) : r.key = variableOf p.constant := by
  cases raw with
  | none => exact key_of_check (show p.check p.default = .error r from h)
  | some raw =>
    rw [value_some] at h
    split at h
    · cases h
      rfl
    · exact key_of_check h

end Parameter

/-! ## All parameters -/

variable {env : Environment} {ps : List Parameter}

/-- Reading succeeds if every parameter has a value. -/
theorem readParameters_of_ok {numbers : List (Parameter × Nat)}
    (h : (readParameters env ps).2 = .ok numbers) :
    numbers.map Prod.fst = ps ∧
      ∀ entry ∈ numbers,
        entry.1.value (lookup env (variableOf entry.1.constant)) = .ok entry.2 := by
  induction ps generalizing numbers with
  | nil =>
    cases h
    exact ⟨rfl, nofun⟩
  | cons p rest ih =>
    simp only [readParameters] at h
    cases hp : p.value (lookup env (variableOf p.constant)) with
    | error r =>
      rw [hp] at h
      cases h
    | ok n =>
      cases hrest : (readParameters env rest).2 with
      | error r =>
        simp only [hp, hrest] at h
        cases h
      | ok later =>
        simp only [hp, hrest] at h
        cases h
        obtain ⟨hfirsts, hvalues⟩ := ih hrest
        exact ⟨congrArg (p :: ·) hfirsts, List.forall_mem_cons.mpr ⟨hp, hvalues⟩⟩

/-- Reading ends at the first parameter that is refused. -/
theorem readParameters_of_error {r : Refusal} (h : (readParameters env ps).2 = .error r) :
    ∃ before p behind, ps = before ++ p :: behind ∧
      (∀ q ∈ before, ∃ n, q.value (lookup env (variableOf q.constant)) = .ok n) ∧
      p.value (lookup env (variableOf p.constant)) = .error r := by
  induction ps with
  | nil => cases h
  | cons p rest ih =>
    simp only [readParameters] at h
    cases hp : p.value (lookup env (variableOf p.constant)) with
    | error r' =>
      rw [hp] at h
      cases h
      exact ⟨[], p, rest, rfl, nofun, hp⟩
    | ok n =>
      cases hrest : (readParameters env rest).2 with
      | ok later =>
        simp only [hp, hrest] at h
        cases h
      | error r' =>
        simp only [hp, hrest] at h
        cases h
        obtain ⟨before, q, behind, rfl, hbefore, hq⟩ := ih hrest
        exact ⟨p :: before, q, behind, rfl, List.forall_mem_cons.mpr ⟨⟨n, hp⟩, hbefore⟩, hq⟩

/-! ## The generated text -/

/-- The line that defines a constant. -/
def definition (constant type value : String) : String :=
  "pub const " ++ constant ++ ": " ++ type ++ " = " ++ value ++ ";"

/-- The lines of a text that define something. -/
def definitions (cs : List Char) : List (List Char) :=
  (cs.splitOn '\n').filter ("pub const ".toList.isPrefixOf ·)

/-- A text in one line. -/
abbrev IsLine (cs : List Char) : Prop :=
  '\n' ∉ cs

theorem IsLine.append {cs ds : List Char} (h : IsLine cs) (h' : IsLine ds) : IsLine (cs ++ ds) := by
  rw [IsLine, List.mem_append]
  exact not_or.mpr ⟨h, h'⟩

theorem isLine_toString (n : Nat) : IsLine (toString n).toList := by
  rw [Nat.toString_eq_ofList_toDigits, String.toList_ofList]
  intro hmem
  exact absurd (Nat.isDigit_of_mem_toDigits (by decide) (by decide) hmem) (by decide)

/-- A quoted text is one line, whatever it quotes. -/
theorem isLine_quoted (text : String) : IsLine (Text.quoted text).toList := by
  have hdigits : ∀ n, '\n' ∉ Nat.toDigits 16 n := by
    intro n
    induction n using Nat.strongRecOn with
    | ind n ih =>
      have hdigit : ∀ d < 16, '\n' ≠ Nat.digitChar d := by decide
      rw [Nat.toDigits_eq_if (by decide)]
      split
      · next hlt => exact List.mem_singleton.not.mpr (hdigit n hlt)
      · next hge =>
        rw [List.mem_append, List.mem_singleton]
        exact not_or.mpr ⟨ih (n / 16) (by omega), hdigit (n % 16) (by omega)⟩
  have hchar : ∀ c, '\n' ∉ Text.quoteChar c := by
    intro c
    have hescape : '\n' ∉ Text.escapeCode c := by
      simp only [Text.escapeCode, List.mem_append, not_or]
      exact ⟨⟨by decide, hdigits c.toNat⟩, by decide⟩
    by_cases hnewline : c = '\n'
    · subst hnewline
      decide
    · have hself : '\n' ∉ [c] := List.mem_singleton.not.mpr (Ne.symm hnewline)
      simp only [Text.quoteChar, if_neg hnewline]
      split_ifs
      all_goals first | exact hescape | exact hself | decide
  have hquote : IsLine "\"".toList := by decide
  rw [Text.quoted, String.toList_append, String.toList_append]
  refine (hquote.append ?_).append hquote
  rw [String.toList_ofList, IsLine, List.mem_flatMap]
  exact fun ⟨c, _, hc⟩ => hchar c hc

/-- A line at the start of a text is a definition or none, and the others are those of the rest. -/
theorem definitions_line {line : List Char} (h : IsLine line) (rest : List Char) :
    definitions (line ++ '\n' :: rest) =
      (if "pub const ".toList.isPrefixOf line then [line] else []) ++ definitions rest := by
  rw [definitions, List.splitOn_append_cons_self_of_not_mem h, List.filter_cons]
  split <;> rfl

/-- A remark defines nothing. -/
theorem definitions_remark {words constant : String} (hwords : IsLine words.toList)
    (hconstant : IsLine constant.toList) (rest : List Char) :
    definitions ((remark words constant).toList ++ rest) = definitions rest := by
  let line := "/// ".toList ++ words.toList ++ " (override with `".toList ++
    (variableOf constant).toList ++ "`).".toList
  have hvariable : IsLine (variableOf constant).toList := by
    rw [variableOf, String.toList_append]
    exact (show IsLine "CTF_".toList by decide).append hconstant
  have hline : IsLine line :=
    ((((show IsLine "/// ".toList by decide).append hwords).append
      (show IsLine " (override with `".toList by decide)).append hvariable).append
      (show IsLine "`).".toList by decide)
  have hend : "`).\n".toList = "`).".toList ++ ['\n'] := by decide
  have hremark : (remark words constant).toList ++ rest = line ++ '\n' :: rest := by
    simp only [line, remark, String.toList_append, List.append_assoc, hend, List.singleton_append]
  have hopens : "pub const ".toList.isPrefixOf line = false := by
    have hslash : "/// ".toList = '/' :: "// ".toList := by decide
    have hpub : "pub const ".toList = 'p' :: "ub const ".toList := by decide
    simp only [line, List.append_assoc, hslash, hpub, List.cons_append]
    rfl
  rw [hremark, definitions_line hline, hopens, if_neg Bool.false_ne_true, List.nil_append]

theorem definitions_definition {constant type value : String} (hconstant : IsLine constant.toList)
    (htype : IsLine type.toList) (hvalue : IsLine value.toList) (rest : List Char) :
    definitions ((definition constant type value).toList ++ '\n' :: rest) =
      (definition constant type value).toList :: definitions rest := by
  have hline : IsLine (definition constant type value).toList := by
    simp only [definition, String.toList_append]
    exact ((((((show IsLine "pub const ".toList by decide).append hconstant).append
      (show IsLine ": ".toList by decide)).append htype).append
      (show IsLine " = ".toList by decide)).append hvalue).append (show IsLine ";".toList by decide)
  have hopens : "pub const ".toList.isPrefixOf (definition constant type value).toList = true := by
    simp only [definition, String.toList_append, List.append_assoc]
    exact List.isPrefixOf_iff_prefix.mpr (List.prefix_append _ _)
  rw [definitions_line hline, hopens, if_pos rfl]
  rfl

theorem renderNumber_eq (entry : Parameter × Nat) :
    renderNumber entry = remark "Build-time parameter" entry.1.constant ++ "pub const " ++
      entry.1.constant ++ ": " ++ entry.1.type ++ " = " ++ toString entry.2 ++ ";\n\n" :=
  rfl

/-- The part of a parameter is a remark and the definition of its constant. -/
theorem definitions_renderNumber {entry : Parameter × Nat}
    (hconstant : IsLine entry.1.constant.toList) (htype : IsLine entry.1.type.toList)
    (rest : List Char) :
    definitions ((renderNumber entry).toList ++ rest) =
      (definition entry.1.constant entry.1.type (toString entry.2)).toList :: definitions rest := by
  have hrender : (renderNumber entry).toList ++ rest =
      (remark "Build-time parameter" entry.1.constant).toList ++
        ((definition entry.1.constant entry.1.type (toString entry.2)).toList ++
          '\n' :: ([] ++ '\n' :: rest)) := by
    have hend : ";\n\n".toList = ";".toList ++ '\n' :: ([] ++ ['\n']) := by decide
    simp only [renderNumber_eq, definition, String.toList_append, List.append_assoc, hend,
      List.cons_append, List.nil_append]
  rw [hrender, definitions_remark (by decide) hconstant,
    definitions_definition hconstant htype (isLine_toString entry.2),
    definitions_line List.not_mem_nil]
  rfl

theorem Values.render_eq (v : Values) :
    v.render = "// @generated by build.rs. Do not edit.\n\n" ++
      String.join (v.numbers.map renderNumber) ++
      remark "Shared-memory region name" nameConstant ++ "pub const " ++ nameConstant ++
      ": &str = " ++ Text.quoted v.name ++ ";\n" :=
  rfl

/-- The generated text defines each constant once, as its value, and then the name. -/
theorem definitions_render {v : Values}
    (h : ∀ entry ∈ v.numbers, IsLine entry.1.constant.toList ∧ IsLine entry.1.type.toList) :
    definitions v.render.toList =
      v.numbers.map (fun entry =>
        (definition entry.1.constant entry.1.type (toString entry.2)).toList) ++
      [(definition nameConstant "&str" (Text.quoted v.name)).toList] := by
  have hnumbers : ∀ (numbers : List (Parameter × Nat)) (rest : List Char),
      (∀ entry ∈ numbers, IsLine entry.1.constant.toList ∧ IsLine entry.1.type.toList) →
      definitions ((String.join (numbers.map renderNumber)).toList ++ rest) =
        numbers.map (fun entry =>
          (definition entry.1.constant entry.1.type (toString entry.2)).toList) ++
        definitions rest := by
    intro numbers rest hlines
    induction numbers with
    | nil => rfl
    | cons entry later ih =>
      obtain ⟨hentry, hlater⟩ := List.forall_mem_cons.mp hlines
      rw [List.map_cons, String.join_cons, String.toList_append, List.append_assoc,
        definitions_renderNumber hentry.1 hentry.2, ih hlater]
      rfl
  have hrender : v.render.toList =
      "// @generated by build.rs. Do not edit.".toList ++ '\n' :: ([] ++ '\n' ::
        ((String.join (v.numbers.map renderNumber)).toList ++
          ((remark "Shared-memory region name" nameConstant).toList ++
            ((definition nameConstant "&str" (Text.quoted v.name)).toList ++ '\n' :: [])))) := by
    have hfirst : "// @generated by build.rs. Do not edit.\n\n".toList =
        "// @generated by build.rs. Do not edit.".toList ++ ['\n', '\n'] := by decide
    have hend : ";\n".toList = ";".toList ++ ['\n'] := by decide
    have htype : ": &str = ".toList = ": ".toList ++ ("&str".toList ++ " = ".toList) := by decide
    simp only [Values.render_eq, definition, String.toList_append, List.append_assoc, hfirst, hend,
      htype, List.cons_append, List.nil_append]
  have hheader : "pub const ".toList.isPrefixOf
      "// @generated by build.rs. Do not edit.".toList = false := by decide
  rw [hrender, definitions_line (by decide), hheader, if_neg Bool.false_ne_true, List.nil_append,
    definitions_line List.not_mem_nil, hnumbers v.numbers _ h,
    definitions_remark (by decide) (by decide),
    definitions_definition (by decide) (by decide) (isLine_quoted v.name)]
  rfl

/-! ## Builds -/

/-- The text that a build writes, if it writes one. -/
def Build.written? (b : Build) : Option String :=
  b.result.toOption.map Values.render

/-- The names that a region may have. -/
def IsRegionName (name : String) : Prop :=
  name ≠ "" ∧ '/' ∉ name.toList

theorem isRegionName_defaultName : IsRegionName defaultName :=
  ⟨by decide, by decide⟩

theorem regionName_eq_ok_iff {raw : Option String} {name : String} :
    regionName raw = .ok name ↔ name = raw.getD defaultName ∧ IsRegionName name := by
  have hcontains : (raw.getD defaultName).contains '/' = true ↔
      '/' ∈ (raw.getD defaultName).toList := by
    rw [String.contains_char_eq, decide_eq_true_iff]
  simp only [regionName, hcontains]
  split
  · next hbad =>
    refine iff_of_false nofun ?_
    rintro ⟨rfl, hne, hslash⟩
    exact hbad.elim hne hslash
  · next hgood =>
    rw [Except.ok.injEq]
    constructor
    · rintro rfl
      exact ⟨rfl, not_or.mp hgood⟩
    · rintro ⟨rfl, -⟩
      rfl

/-- A name that is not empty and has no slash is taken as it is. -/
theorem regionName_eq {name : Option String}
    (h : ∀ text, name = some text → text ≠ "" ∧ '/' ∉ text.toList) :
    regionName name = .ok (name.getD defaultName) := by
  refine regionName_eq_ok_iff.mpr ⟨rfl, ?_⟩
  cases name with
  | none => exact isRegionName_defaultName
  | some text => exact h text rfl

/-- With an admitted name, a build ends as the reading of the parameters does. -/
theorem result_configure {name : String}
    (h : regionName (lookup env (variableOf nameConstant)) = .ok name) :
    (configure env).result = (readParameters env parameters).2.map (⟨·, name⟩) := by
  rw [configure]
  cases (readParameters env parameters).2 with
  | error r => rfl
  | ok numbers =>
    simp only [h]
    rfl

/-- A build reads exactly its grammar. It succeeds if and only if every variable that is set denotes
an admitted number, and then each constant is defined as the number taken for it; otherwise it is
refused for the first parameter that takes none, under the name of its variable, and writes
nothing. -/
theorem configure_settles {raw : Parameter → Option String} {name : Option String}
    (hraw : ∀ p ∈ parameters, IsSetTo env p.constant (raw p))
    (hname : IsSetTo env nameConstant name)
    (hvalid : ∀ text, name = some text → text ≠ "" ∧ '/' ∉ text.toList) :
    let build := configure env
    ((∃ v, build.result = .ok v) ↔ ∀ p ∈ parameters, ∃ n, p.Takes (raw p) n) ∧
    (∀ v, build.result = .ok v →
      v.numbers.map Prod.fst = parameters ∧
      (∀ entry ∈ v.numbers, entry.1.Takes (raw entry.1) entry.2) ∧
      v.name = name.getD defaultName ∧
      ∃ text, build.written? = some text ∧
        definitions text.toList =
          v.numbers.map (fun entry =>
            (definition entry.1.constant entry.1.type (toString entry.2)).toList) ++
          [(definition nameConstant "&str" (Text.quoted v.name)).toList]) ∧
    (∀ r, build.result = .error r →
      build.written? = none ∧
      ∃ before p behind, parameters = before ++ p :: behind ∧
        (∀ q ∈ before, ∃ n, q.Takes (raw q) n) ∧ (¬ ∃ n, p.Takes (raw p) n) ∧
        ∃ rest, r.message = variableOf p.constant ++ (": " ++ rest)) := by
  have hregion : regionName (lookup env (variableOf nameConstant)) =
      .ok (name.getD defaultName) := by
    rw [hname.lookup_eq]
    exact regionName_eq hvalid
  have hresult : (configure env).result =
      (readParameters env parameters).2.map (⟨·, name.getD defaultName⟩) :=
    result_configure hregion
  have htakes : ∀ p ∈ parameters, ∀ n,
      p.value (lookup env (variableOf p.constant)) = .ok n ↔ p.Takes (raw p) n := by
    intro p hp n
    rw [(hraw p hp).lookup_eq]
    exact Parameter.value_eq_ok_iff hp
  have hrefused : ∀ r, (readParameters env parameters).2 = .error r →
      ∃ before p behind, parameters = before ++ p :: behind ∧
        (∀ q ∈ before, ∃ n, q.Takes (raw q) n) ∧ (¬ ∃ n, p.Takes (raw p) n) ∧
        r.key = variableOf p.constant := by
    intro r hread
    obtain ⟨before, p, behind, hps, hbefore, hp⟩ := readParameters_of_error hread
    have hmem : ∀ q ∈ before ++ p :: behind, q ∈ parameters := fun q hq => hps ▸ hq
    refine ⟨before, p, behind, hps, fun q hq => ?_, fun ⟨n, hn⟩ => ?_, Parameter.key_of_value hp⟩
    · obtain ⟨n, hn⟩ := hbefore q hq
      exact ⟨n, (htakes q (hmem q (List.mem_append_left _ hq)) n).mp hn⟩
    · have hok := (htakes p (hmem p (by simp)) n).mpr hn
      rw [hp] at hok
      cases hok
  intro build
  cases hread : (readParameters env parameters).2 with
  | error r =>
    have hbuild : build.result = .error r := by rw [hresult, hread]; rfl
    obtain ⟨before, p, behind, hps, hbefore, hp, hkey⟩ := hrefused r hread
    refine ⟨iff_of_false ?_ ?_, ?_, ?_⟩
    · rintro ⟨v, hv⟩
      cases hbuild.symm.trans hv
    · intro hall
      exact hp (hall p (hps ▸ by simp))
    · intro v hv
      cases hbuild.symm.trans hv
    · intro r' hr'
      cases hbuild.symm.trans hr'
      obtain ⟨rest, hmessage⟩ := r.message_eq
      refine ⟨by rw [Build.written?, hbuild]; rfl, before, p, behind, hps, hbefore, hp, rest, ?_⟩
      rw [hmessage, hkey]
  | ok numbers =>
    have hbuild : build.result = .ok ⟨numbers, name.getD defaultName⟩ := by
      rw [hresult, hread]
      rfl
    obtain ⟨hfirsts, hvalues⟩ := readParameters_of_ok hread
    have hentry : ∀ entry ∈ numbers, entry.1 ∈ parameters := fun entry hmem =>
      hfirsts ▸ List.mem_map_of_mem hmem
    have htaken : ∀ entry ∈ numbers, entry.1.Takes (raw entry.1) entry.2 := fun entry hmem =>
      (htakes entry.1 (hentry entry hmem) entry.2).mp (hvalues entry hmem)
    refine ⟨iff_of_true ⟨_, hbuild⟩ fun p hp => ?_, ?_, ?_⟩
    · rw [← hfirsts] at hp
      obtain ⟨entry, hmem, rfl⟩ := List.mem_map.mp hp
      exact ⟨entry.2, htaken entry hmem⟩
    · intro v hv
      cases hbuild.symm.trans hv
      refine ⟨hfirsts, htaken, rfl, _, by rw [Build.written?, hbuild]; rfl, ?_⟩
      have hlines : ∀ p ∈ parameters, IsLine p.constant.toList ∧ IsLine p.type.toList := by decide
      exact definitions_render fun entry hmem => hlines entry.1 (hentry entry hmem)
    · intro r hr
      cases hbuild.symm.trans hr

/-- An environment that sets some constants. -/
def environmentOf (overrides : List (String × String)) : Environment :=
  overrides.map fun o => (variableOf o.1, Bytes.ofText o.2)

/-- Two rows, with a sign between underscores and a blank that is not of ASCII, and a packet size
with more zeros than 64 bits have digits. -/
def spacedOut : List (String × String) :=
  [("CORES_ROWS", "\u00a0_+_2_\t"), ("PACKET_SIZE", "0000000000000000000000000001_024")]

/-- Two values that are refused, the first of them since it does not fit 64 bits. -/
def tooMany : List (String × String) :=
  [("RINGBUF_SIZE", "6"), ("CORES_COLS", "18_446_744_073_709_551_616")]

theorem configure_settles_of_overrides :
    (∀ p ∈ parameters, IsSetTo (environmentOf spacedOut) p.constant (spacedOut.lookup p.constant)) ∧
    (∀ p ∈ parameters, IsSetTo (environmentOf tooMany) p.constant (tooMany.lookup p.constant)) ∧
    (∃ v text, (configure (environmentOf spacedOut)).result = .ok v ∧
      v.numbers.map Prod.snd = [2, 4, 1024, 4, 10000000, 5000] ∧
      (configure (environmentOf spacedOut)).written? = some text ∧
      (definition "CORES_ROWS" "usize" "2").toList ∈ definitions text.toList) ∧
    (configure (environmentOf tooMany)).result =
      .error (.notANumber "CTF_CORES_COLS" "18_446_744_073_709_551_616") ∧
    (configure (environmentOf tooMany)).written? = none := by
  have hspaced : ∀ p ∈ parameters,
      IsSetTo (environmentOf spacedOut) p.constant (spacedOut.lookup p.constant) := by
    simp only [IsSetTo]
    decide +kernel
  have hmany : ∀ p ∈ parameters,
      IsSetTo (environmentOf tooMany) p.constant (tooMany.lookup p.constant) := by
    simp only [IsSetTo]
    decide +kernel
  have hname : IsSetTo (environmentOf spacedOut) nameConstant none := by
    simp only [IsSetTo]
    decide +kernel
  have hname' : IsSetTo (environmentOf tooMany) nameConstant none := by
    simp only [IsSetTo]
    decide +kernel
  have hregion : ∀ env, IsSetTo env nameConstant none →
      regionName (lookup env (variableOf nameConstant)) = .ok defaultName := by
    intro env henv
    rw [henv.lookup_eq]
    exact regionName_eq nofun
  obtain ⟨-, hok, -⟩ := configure_settles hspaced hname nofun
  obtain ⟨-, -, herror⟩ := configure_settles hmany hname' nofun
  have hbuild : (configure (environmentOf spacedOut)).result =
      .ok ⟨parameters.zip [2, 4, 1024, 4, 10000000, 5000], defaultName⟩ := by
    rw [result_configure (hregion _ hname)]
    decide +kernel
  have hbuild' : (configure (environmentOf tooMany)).result =
      .error (.notANumber "CTF_CORES_COLS" "18_446_744_073_709_551_616") := by
    rw [result_configure (hregion _ hname')]
    decide +kernel
  obtain ⟨-, -, -, text, hwritten, hdefinitions⟩ := hok _ hbuild
  refine ⟨hspaced, hmany, ⟨_, text, hbuild, rfl, hwritten, ?_⟩, hbuild', (herror _ hbuild').1⟩
  rw [hdefinitions]
  exact List.mem_append_left _ List.mem_cons_self

end TraceRing.Settings
