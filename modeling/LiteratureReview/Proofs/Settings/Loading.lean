/-
  LiteratureReview.Proofs.Settings.Loading
  ────────────────────────────────────────
  Every setting has the value of the highest source that gives it.

  Files and variables are trees with every key once (`keysOnce_ofToml`,
  `Environment.keysOnce_read`), so that layers of them are followed along
  the keys of one setting at a time (`SettingsSources.shows_tree`).  What is
  read out of a tree of tables is what stands at the end of the keys
  (`Settings.holds_of_ofTree`).
-/
import LiteratureReview.Proofs.Settings.Extraction
import LiteratureReview.Settings.Loading
import Mathlib.Data.List.Infix

namespace LiteratureReview

open LiteratureReview.Tree

/-! ## §1. Files. -/

namespace Tree

theorem membersOfToml_eq_map (s : Source) (ms : List (String × Toml.Value)) :
    membersOfToml s ms = ms.map fun m => (m.1, ofToml s m.2) := by
  induction ms with
  | nil => rfl
  | cons m rest ih => rw [membersOfToml, ih, List.map_cons]

/-- The tree of a value has every key once if the value has. -/
theorem keysOnce_ofToml {s : Source} {v : Toml.Value} (once : v.KeysOnce) :
    (ofToml s v).KeysOnce := by
  induction once with
  | table distinct _ ih =>
    rw [ofToml, membersOfToml_eq_map]
    refine .table (by rwa [List.map_map]) fun m mem => ?_
    obtain ⟨member, there, rfl⟩ := List.mem_map.1 mem
    exact ih member there
  | @plain v noTable =>
    cases v with
    | table ms => exact absurd rfl (noTable ms)
    | date _ =>
      exact .table (List.nodup_singleton _) fun m mem => (List.mem_singleton.1 mem) ▸ .plain rfl
    | _ => exact .plain rfl

end Tree

/-- The tree of a file is a table with every key once, all the way down. -/
theorem SettingsFile.keysOnce_of_toTree {f : SettingsFile} {t : Tree} (read : f.toTree = .ok t) :
    t.isTable = true ∧ t.KeysOnce := by
  rw [toTree] at read
  cases parsed : Toml.parse f.text with
  | none =>
    rw [parsed] at read
    cases read
  | some ms =>
    rw [parsed] at read
    cases read
    exact ⟨rfl, keysOnce_ofToml (Toml.keysOnce_of_parse parsed)⟩

/-! ## §2. Variables. -/

namespace Environment

variable {fuel : Nat} {cs rest : List Char} {t : Tree} {ms done : List (String × Tree)}

/-- What is read as a value, its braces aside, has no keys. -/
theorem keysOnce_of_value
    (tables : ∀ {cs ms rest}, members fuel [] cs = some (ms, rest) →
      (Tree.table .environment ms).KeysOnce)
    (run : value (fuel + 1) cs = some (t, rest)) : t.KeysOnce := by
  have step {given : Option (Tree × List Char)}
      (each : ∀ u after, given = some (u, after) → u.KeysOnce)
      (run : (given >>= fun r => some (r.1, skipGap r.2)) = some (t, rest)) : t.KeysOnce := by
    obtain ⟨⟨u, after⟩, made, same⟩ := Option.bind_eq_some_iff.1 run
    cases same
    exact each u after made
  have leaf {v : Scalar} {after : List Char} (u : Tree) (back : List Char)
      (same : some (Tree.leaf .environment v, after) = some (u, back)) : u.KeysOnce := by
    cases same
    exact .plain rfl
  -- every way a value may start but the brace gives something without keys
  rw [value] at run
  split at run
  next => exact step leaf run
  next => exact step leaf run
  next =>
    refine step (fun u after made => ?_) run
    obtain ⟨⟨ms, _⟩, inside, same⟩ := Option.map_eq_some_iff.1 made
    cases same
    exact tables inside
  next =>
    refine step (fun u after made => ?_) run
    obtain ⟨_, -, same⟩ := Option.map_eq_some_iff.1 made
    cases same
    exact .plain rfl
  next =>
    refine step (fun u after made => ?_) run
    obtain ⟨_, -, same⟩ := Option.map_eq_some_iff.1 made
    exact leaf u after (congrArg some same)
  next =>
    split at run
    · exact step leaf run
    · cases run
  next => exact step leaf run

/-- A member is set among those before. -/
theorem keysOnce_of_members {s : Source}
    (values : ∀ {cs t rest}, value fuel cs = some (t, rest) → t.KeysOnce)
    (tables : ∀ {done cs ms rest}, (Tree.table s done).KeysOnce →
      members fuel done cs = some (ms, rest) → (Tree.table s ms).KeysOnce)
    (once : (Tree.table s done).KeysOnce) (run : members (fuel + 1) done cs = some (ms, rest)) :
    (Tree.table s ms).KeysOnce := by
  rw [members.eq_def] at run
  simp only at run
  split at run
  next => cases run
  next =>
    cases run
    exact once
  next same _ =>
    cases same
    obtain ⟨⟨name, back⟩, -, run⟩ := Option.bind_eq_some_iff.1 run
    obtain ⟨behind, -, run⟩ := Option.bind_eq_some_iff.1 run
    obtain ⟨⟨u, after⟩, made, run⟩ := Option.bind_eq_some_iff.1 run
    have grown : (Tree.table s (put name u _)).KeysOnce := once.put (values made)
    -- a comma and more members, or the brace
    simp only at run
    split at run
    next => exact tables grown run
    next =>
      obtain ⟨_, -, same⟩ := Option.bind_eq_some_iff.1 run
      cases same
      exact grown

/-- Values and the members of tables in braces have every key once. -/
theorem yieldsOnce (fuel : Nat) :
    (∀ {cs t rest}, value fuel cs = some (t, rest) → t.KeysOnce) ∧
      ∀ {s done cs ms rest}, (Tree.table s done).KeysOnce →
        members fuel done cs = some (ms, rest) → (Tree.table s ms).KeysOnce := by
  induction fuel with
  | zero => exact ⟨nofun, fun _ run => nomatch run⟩
  | succ fuel ih =>
    obtain ⟨values, tables⟩ := ih
    exact ⟨keysOnce_of_value (tables keysOnce_empty), keysOnce_of_members values tables⟩

/-- The value of a variable has every key once. -/
theorem keysOnce_read (text : String) : (read text).KeysOnce := by
  rw [read]
  split
  next run => exact (yieldsOnce _).1 run
  next => exact .plain rfl

/-- The settings of one variable, if it holds any. -/
def piece (v : String × String) : Option Tree :=
  (keysOf v.1).map fun keys => nest .environment keys (read v.2)

/-- The settings of the variables, each by itself. -/
def pieces (vars : Variables) : List Tree := vars.filterMap piece

theorem toTree_eq_foldl (vars : Variables) :
    toTree vars = (pieces vars).foldl overlay (.table .environment []) := by
  rw [pieces, List.foldl_filterMap, toTree]
  congr 1
  funext t v
  rw [piece]
  cases keysOf v.1 <;> rfl

theorem splitName_ne_nil (before letters : List Char) : splitName before letters ≠ [] := by
  fun_induction splitName before letters with
  | case1 => exact List.cons_ne_nil _ _
  | case2 => exact List.cons_ne_nil _ _
  | case3 _ _ _ _ _ ih => exact ih
  | case4 => exact List.cons_ne_nil _ _

/-- The tree of a variable is a table with every key once, all the way down. -/
theorem keysOnce_of_mem_pieces {vars : Variables} {t : Tree} (mem : t ∈ pieces vars) :
    t.isTable = true ∧ t.KeysOnce := by
  obtain ⟨v, -, made⟩ := List.mem_filterMap.1 mem
  obtain ⟨keys, named, rfl⟩ := Option.map_eq_some_iff.1 made
  refine ⟨?_, (keysOnce_read _).nest⟩
  cases keys with
  | cons key rest => rfl
  | nil =>
    -- a name has a key at least, which may be empty
    rw [keysOf] at named
    split at named
    · dsimp only at named
      split at named
      · cases named
      · exact absurd (List.map_eq_nil_iff.1 (Option.some.inj named)) (splitName_ne_nil _ _)
    · cases named

end Environment

/-! ## §3. What sources give. -/

/-- What settings stand in. -/
def Settings.sections : List (List String) :=
  [["database"], ["defaults"], ["defaults", "extraction_field"], ["general"]]

/-- What the tree gives as a section is a table. -/
def Tree.GivesTables (t : Tree) : Prop :=
  ∀ keys ∈ Settings.sections, ∀ u ∈ t.at? keys, u.isTable = true

instance (t : Tree) : Decidable t.GivesTables :=
  inferInstanceAs (Decidable (∀ keys ∈ Settings.sections, ∀ u ∈ t.at? keys, u.isTable = true))

/-- The settings of a file, if it is a document. -/
def SettingsFile.tree? (f : SettingsFile) : Option Tree := f.toTree.toOption

/-- What a file gives for a setting. -/
def SettingsFile.given? (f : SettingsFile) (k : Setting) : Option Tree :=
  f.tree?.bind (·.at? k.keys)

/-- What variables give for a setting: the value of the last one that sets it. -/
def Environment.given? (vars : Environment.Variables) (k : Setting) : Option Tree :=
  (Environment.pieces vars).reverse.findSome? (·.at? k.keys)

/-- Where a setting is set once, the order of the variables does not matter. -/
theorem Environment.given?_of_once {vars : Environment.Variables} {k : Setting} {t u : Tree}
    (mem : t ∈ pieces vars) (sets : t.at? k.keys = some u)
    (once : ∀ other ∈ pieces vars, ∀ w, other.at? k.keys = some w → w = u) :
    given? vars k = some u := by
  cases found : given? vars k with
  | none =>
    have absent := List.findSome?_eq_none_iff.1 found t (List.mem_reverse.2 mem)
    rw [sets] at absent
    cases absent
  | some w =>
    obtain ⟨other, there, same⟩ := List.exists_of_findSome?_eq_some found
    rw [once other (List.mem_reverse.1 there) w same]

namespace SettingsSources

/-- What the highest source gives that sets the setting: the environment,
then the project's file, then the user's. -/
def given? (sources : SettingsSources) (k : Setting) : Option Tree :=
  (Environment.given? sources.environment k).or <|
    (sources.projectFile.bind (·.given? k)).or <|
    sources.userFile.bind (·.given? k)

/-- Sections are given as tables, if at all, by each file and by each variable. -/
structure GivesTables (sources : SettingsSources) : Prop where
  user : ∀ f ∈ sources.userFile, ∀ t ∈ f.tree?, t.GivesTables
  project : ∀ f ∈ sources.projectFile, ∀ t ∈ f.tree?, t.GivesTables
  environment : ∀ t ∈ Environment.pieces sources.environment, t.GivesTables

end SettingsSources

/-- On the way to a setting there are sections only. -/
theorem Setting.mem_sections_of_front {k : Setting} {keys : List String} (front : keys <+: k.keys)
    (shorter : keys ≠ k.keys) : keys = [] ∨ keys ∈ Settings.sections := by
  -- the keys are three at most, so their fronts can be gone through
  have each : ∀ front ∈ k.keys.inits, front ≠ k.keys → front = [] ∨ front ∈ Settings.sections := by
    cases k <;> decide
  exact each keys ((List.mem_inits _ _).2 front) shorter

/-- A table whose sections are tables is followed along the keys of every setting. -/
theorem Tree.opens_of_givesTables {t : Tree} (table : t.isTable = true) (tables : t.GivesTables)
    (k : Setting) : t.Opens k.keys := by
  refine opens_of_prefixes fun keys front shorter u found => ?_
  rcases k.mem_sections_of_front front shorter with rfl | within
  · cases found
    exact table
  · exact tables keys within u found

/-! ## §4. Layers. -/

theorem SettingsFile.layer_of_toTree {f : SettingsFile} {t : Tree} (read : f.toTree = .ok t)
    (tables : ∀ t ∈ f.tree?, t.GivesTables) (k : Setting) : t.Layer k.keys := by
  obtain ⟨table, once⟩ := keysOnce_of_toTree read
  exact ⟨once, opens_of_givesTables table (tables t (toOption_eq_some_iff.2 read)) k⟩

/-- A file that may be missing is a layer, or none. -/
theorem SettingsFile.layers_of_mapM {o : Option SettingsFile} {ts : List Tree}
    (read : o.toList.mapM toTree = .ok ts) (tables : ∀ f ∈ o, ∀ t ∈ f.tree?, t.GivesTables)
    (k : Setting) :
    (∀ t ∈ ts, t.Layer k.keys) ∧
      ts.reverse.findSome? (·.at? k.keys) = o.bind (·.given? k) := by
  cases o with
  | none =>
    cases read
    exact ⟨nofun, rfl⟩
  | some f =>
    obtain ⟨t, others, first, last, rfl⟩ := mapM_cons_eq_ok_iff.1 read
    cases last
    refine ⟨fun u mem => ?_, ?_⟩
    · cases List.mem_singleton.1 mem
      exact layer_of_toTree first (tables f rfl) k
    · rw [Option.bind_some, given?, tree?, toOption_eq_some_iff.2 first, Option.bind_some]
      exact List.findSome?_singleton

/-- The variables are one layer, in which a setting is that of the last of them that sets it. -/
theorem Environment.layer_toTree {vars : Variables} (tables : ∀ t ∈ pieces vars, t.GivesTables)
    (k : Setting) :
    (toTree vars).Layer k.keys ∧
      ((toTree vars).at? k.keys).map text? = (given? vars k).map text? := by
  have layers (t : Tree) (mem : t ∈ pieces vars) : t.Layer k.keys := by
    obtain ⟨table, once⟩ := keysOnce_of_mem_pieces mem
    exact ⟨once, opens_of_givesTables table (tables t mem) k⟩
  have once : ∀ t ∈ pieces vars, t.KeysOnce := fun t mem => (layers t mem).once
  have opens : (Tree.table .environment []).Opens k.keys := opens_of_givesTables rfl (by decide) k
  have nothing : (Tree.table .environment []).at? k.keys = none := by
    cases k <;> rfl
  rw [toTree_eq_foldl]
  refine ⟨⟨.foldl once keysOnce_empty, .foldl layers opens⟩, ?_⟩
  rw [text?_foldl layers, nothing, Option.or_none, given?]

/-- **In all sources together each setting is what the highest of them gives that sets it**, the
built-in value if none does. -/
theorem SettingsSources.text?_tree {sources : SettingsSources} {t : Tree}
    (made : sources.tree = .ok t) (tables : sources.GivesTables) (k : Setting) :
    t.Opens k.keys ∧ (t.at? k.keys).map text? =
      some ((sources.given? k).getD (Settings.builtInText (({} : Settings).value k))).text? := by
  obtain ⟨layers, read, same⟩ := exists_of_bind_eq_ok made
  cases same
  obtain ⟨user, userRead, read⟩ := exists_of_bind_eq_ok read
  obtain ⟨project, projectRead, same⟩ := exists_of_bind_eq_ok read
  cases same
  obtain ⟨userLayers, ofUser⟩ := SettingsFile.layers_of_mapM userRead tables.user k
  obtain ⟨projectLayers, ofProject⟩ := SettingsFile.layers_of_mapM projectRead tables.project k
  obtain ⟨top, ofEnvironment⟩ := Environment.layer_toTree tables.environment k
  have lowest : overlay (.table .builtIn []) (Settings.toTree {}) = Settings.toTree {} := rfl
  have opens : (Settings.toTree {}).Opens k.keys := opens_of_givesTables rfl (by decide) k
  rw [List.cons_append, List.cons_append, List.foldl_cons, lowest, List.foldl_append,
    List.foldl_append, List.foldl_cons, List.foldl_nil]
  refine ⟨top.opens.overlay top.once (.foldl projectLayers (.foldl userLayers opens)), ?_⟩
  -- the files over the built-in settings, and the environment over both
  generalize builtIn : Settings.builtInText (({} : Settings).value k) = b
  have files : ((project.foldl overlay (user.foldl overlay (Settings.toTree {}))).at? k.keys).map
      text? = ((sources.projectFile.bind (·.given? k)).or
        ((sources.userFile.bind (·.given? k)).or (some b))).map text? := by
    rw [text?_foldl projectLayers, ofProject, Option.map_or, text?_foldl userLayers, ofUser,
      Settings.at?_toTree, builtIn, ← Option.map_or]
  have highest : (Environment.given? sources.environment k).or
      ((sources.projectFile.bind (·.given? k)).or
        ((sources.userFile.bind (·.given? k)).or (some b))) = some ((sources.given? k).getD b) := by
    rw [← Option.or_some, given?, Option.or_assoc, Option.or_assoc]
  rw [at?_overlay top.once top.opens, map_text?_merge, Option.map_or, ofEnvironment, files,
    ← Option.map_or, highest, Option.map_some]

/-! ## §5. Loading. -/

namespace Settings

/-- Settings that are loaded are read out of the layers, and meet the conditions. -/
theorem exists_of_load {sources : SettingsSources} {settings : Settings}
    (loaded : load sources = .ok settings) :
    ∃ t, sources.tree = .ok t ∧ ofTree t = .ok settings ∧ settings.validate = .ok () := by
  obtain ⟨t, made, loaded⟩ := exists_of_bind_eq_ok loaded
  obtain ⟨s, read, loaded⟩ := exists_of_bind_eq_ok loaded
  obtain ⟨⟨⟩, valid, same⟩ := exists_of_bind_eq_ok loaded
  cases same
  exact ⟨t, made, eq_ok_of_mapError read, eq_ok_of_mapError valid⟩

/-- **Settings are layered one by one.**  If sections are tables in every source, each setting
that is loaded is the text that the highest source gives that sets it, whatever the sources set
beside it, and the built-in one if none sets it.  In any case, what is loaded can be used. -/
theorem load_layered {sources : SettingsSources} {settings : Settings}
    (loaded : load sources = .ok settings) :
    (sources.GivesTables → ∀ k : Setting,
        ((sources.given? k).getD (builtInText (({} : Settings).value k))).text? =
          some (settings.value k)) ∧
      settings.validate = .ok () ∧
      (OutputFormat.ofSetting settings.general.output).isSome = true := by
  obtain ⟨t, made, read, valid⟩ := exists_of_load loaded
  refine ⟨fun tables k => ?_, valid, isSome_ofSetting_of_validate valid⟩
  have holds := holds_of_ofTree (fun k => (sources.text?_tree made tables k).1) read k
  obtain ⟨-, given⟩ := sources.text?_tree made tables k
  obtain ⟨u, there, same⟩ := Option.map_eq_some_iff.1 given
  rw [← same]
  exact holds u there

/-- Sources that give parts of the same tables, at every level. -/
def partialSources : SettingsSources where
  userFile := some
    { path := "/home/ada/.config/sift/config.toml"
      text := "[database]\npath = \"user.db\"\n[defaults.extraction_field]\n"
        ++ "name = \"remarks\"\ntitle = \"Remarks\"\n" }
  projectFile := some
    { path := ".sift/config.toml"
      text := "[defaults]\nexclusion_criterion = \"Not a study\"\n"
        ++ "extraction_field = \x7b name = \"summary\" \x7d\n" }
  environment :=
    [("SIFT_DEFAULTS__EXTRACTION_FIELD__TYPE", "string"),
     ("SIFT_DATABASE", "\x7bpath=\":memory:\"\x7d"), ("HOME", "/home/ada")]

/-- What is loaded from these: two settings of the environment, two of the project's file, one of
the user's, and one that is built in. -/
def partialSettings : Settings where
  database := { path := ":memory:" }
  defaults :=
    { extractionField := { name := "summary", title := "Remarks", type := "string" }
      exclusionCriterion := "Not a study" }

theorem load_layered_partial :
    load partialSources = .ok partialSettings ∧ partialSources.GivesTables ∧
      (∀ k : Setting,
        ((partialSources.given? k).getD (builtInText (({} : Settings).value k))).text? =
          some (partialSettings.value k)) ∧
      partialSettings.validate = .ok () ∧
      (OutputFormat.ofSetting partialSettings.general.output).isSome = true := by
  have loaded : load partialSources = .ok partialSettings := by decide +kernel
  have tables : partialSources.GivesTables :=
    ⟨by decide +kernel, by decide +kernel, by decide +kernel⟩
  obtain ⟨layered, valid, format⟩ := load_layered loaded
  exact ⟨loaded, tables, layered tables, valid, format⟩

end Settings

end LiteratureReview
