/-
# Which projects are loaded, and what stops the others

A project is loaded exactly if nothing is wrong with any of its files, and no two of them have a script
for one process. In whatever order the folder lists its files, they are read by their names. So the first
fault by name is the one that is told, and of two files for one process the later is at fault.

* `Project.GivesSettings`, `Project.SettingsFault` : what a file of settings gives, or what is wrong;
* `Project.Gives`, `Project.ScriptFault` : the same for the file of a script;
* `Project.gives_or_fault`, `Project.Gives.add`, `Project.ScriptFault.add` : the next file;
* `Project.Accepted`, `Project.foldlM_addScript` : the files in order, up to the first at fault;
* `Project.InOrder` : the files of the scripts by their names;
* `Project.Sound`, `Project.Loaded`, `Project.Blamed` : the condition, the result, and the fault;
* `Project.load_exact` : which projects are loaded, what they hold, and what stops the others.
-/
import Mathlib.Data.List.Forall2
import Stepwise.Project.Load
import Stepwise.Proofs.KeyMap
import Stepwise.Proofs.Server.Running

namespace Stepwise.Project

variable {F : Type} {r : Reader F}

/-! ## What a file gives, and what is wrong with it -/

/-- The settings of a project: the standard ones without a file, and otherwise those in the file, which
name a main process. -/
inductive GivesSettings (r : Reader F) : Option F → Settings → Prop where
  | standard : GivesSettings r none .standard
  | file {f : F} {text : String} {settings : Settings} (read : r.text? f = .ok text)
      (means : r.settings? text = some settings)
      (main : Text.isBlankText settings.mainProcess = false) : GivesSettings r (some f) settings

/-- What is wrong with the file of the settings. -/
inductive SettingsFault (r : Reader F) : Option F → LoadError → Prop where
  | unreadable {f : F} {failure : ReadFailure} (h : r.text? f = .error failure) :
    SettingsFault r (some f) (.unreadable .settings failure)
  | malformed {f : F} {text : String} (read : r.text? f = .ok text)
      (h : r.settings? text = none) : SettingsFault r (some f) .malformedSettings
  | noMainProcess {f : F} {text : String} {settings : Settings} (read : r.text? f = .ok text)
      (means : r.settings? text = some settings)
      (h : Text.isBlankText settings.mainProcess = true) : SettingsFault r (some f) .noMainProcess

/-- A file gives a script: a script with steps. -/
structure Gives (r : Reader F) (f : F) (s : Script) : Prop where
  means : ∃ text, r.text? f = .ok text ∧ r.script? text = some s
  steps : s.steps ≠ []

/-- What is wrong with the file of a script, after files that gave some scripts. -/
inductive ScriptFault (r : Reader F) (earlier : List Script) : String × F → LoadError → Prop where
  | unreadable {name : String} {f : F} {failure : ReadFailure} (h : r.text? f = .error failure) :
    ScriptFault r earlier (name, f) (.unreadable (.script name) failure)
  | malformed {name : String} {f : F} {text : String} (read : r.text? f = .ok text)
      (h : r.script? text = none) : ScriptFault r earlier (name, f) (.malformedScript name)
  | noSteps {name : String} {f : F} {text : String} {s : Script} (read : r.text? f = .ok text)
      (means : r.script? text = some s) (h : s.steps = []) :
    ScriptFault r earlier (name, f) (.noSteps name s.name)
  | duplicate {name : String} {f : F} {s : Script} (gives : Gives r f s)
      (taken : s.name ∈ earlier.map Script.name) :
    ScriptFault r earlier (name, f) (.duplicate name s.name)

/-- A file gives one script at most. -/
theorem Gives.eq {f : F} {s t : Script} (hs : Gives r f s) (ht : Gives r f t) : s = t := by
  obtain ⟨text, read, means⟩ := hs.means
  obtain ⟨text', read', means'⟩ := ht.means
  cases read.symm.trans read'
  exact Option.some.inj (means.symm.trans means')

theorem SettingsFault.file {o : Option F} {e : LoadError} (fault : SettingsFault r o e) :
    e.file = .settings := by
  cases fault <;> rfl

theorem ScriptFault.file {earlier : List Script} {file : String × F} {e : LoadError}
    (fault : ScriptFault r earlier file e) : e.file = .script file.1 := by
  cases fault <;> rfl

/-! ## One file -/

theorem readText_of_ok {f : F} {text : String} (read : r.text? f = .ok text) (file : ProjectFile) :
    readText r file f = .ok text := by
  rw [readText, read]
  rfl

theorem readText_of_error {f : F} {failure : ReadFailure} (h : r.text? f = .error failure)
    (file : ProjectFile) : readText r file f = .error (.unreadable file failure) := by
  rw [readText, h]
  rfl

theorem GivesSettings.load {o : Option F} {settings : Settings} (gives : GivesSettings r o settings) :
    loadSettings r o = .ok settings := by
  cases gives with
  | standard => rfl
  | file read means main => simp [loadSettings, readText_of_ok read, means, main, bind, Except.bind]

theorem SettingsFault.load {o : Option F} {e : LoadError} (fault : SettingsFault r o e) :
    loadSettings r o = .error e := by
  cases fault with
  | unreadable h =>
    rw [loadSettings, readText_of_error h]
    rfl
  | malformed read h => simp [loadSettings, readText_of_ok read, h, bind, Except.bind]
  | noMainProcess read means h =>
    simp [loadSettings, readText_of_ok read, means, h, bind, Except.bind]

/-- Nothing else can become of the settings. -/
theorem givesSettings_or_fault (r : Reader F) (o : Option F) :
    (∃ settings, GivesSettings r o settings) ∨ ∃ e, SettingsFault r o e := by
  cases o with
  | none => exact .inl ⟨_, .standard⟩
  | some f =>
    cases read : r.text? f with
    | error failure => exact .inr ⟨_, .unreadable read⟩
    | ok text =>
      cases means : r.settings? text with
      | none => exact .inr ⟨_, .malformed read means⟩
      | some settings =>
        cases main : Text.isBlankText settings.mainProcess with
        | true => exact .inr ⟨_, .noMainProcess read means main⟩
        | false => exact .inl ⟨_, .file read means main⟩

theorem Gives.load {f : F} {s : Script} (gives : Gives r f s) (name : String) :
    loadScript r name f = .ok s := by
  obtain ⟨⟨text, read, means⟩, steps⟩ := gives
  simp [loadScript, readText_of_ok read, means, steps, bind, Except.bind]

/-- A script is taken if its process has none yet. -/
theorem Gives.add {file : String × F} {s : Script} {earlier : List Script}
    (gives : Gives r file.2 s) (fresh : s.name ∉ earlier.map Script.name) :
    addScript r earlier file = .ok (earlier ++ [s]) := by
  rw [addScript, gives.load]
  refine if_neg ?_
  simpa using fresh

theorem addScript_of_error {earlier : List Script} {file : String × F} {e : LoadError}
    (h : loadScript r file.1 file.2 = .error e) : addScript r earlier file = .error e := by
  rw [addScript, h]
  rfl

theorem ScriptFault.add {earlier : List Script} {file : String × F} {e : LoadError}
    (fault : ScriptFault r earlier file e) : addScript r earlier file = .error e := by
  cases fault with
  | unreadable h =>
    refine addScript_of_error ?_
    rw [loadScript, readText_of_error h]
    rfl
  | malformed read h =>
    refine addScript_of_error ?_
    simp [loadScript, readText_of_ok read, h, bind, Except.bind]
  | noSteps read means h =>
    refine addScript_of_error ?_
    simp [loadScript, readText_of_ok read, means, h, bind, Except.bind]
  | duplicate gives taken =>
    rw [addScript, gives.load]
    refine if_pos ?_
    simpa using taken

/-- Nothing else can become of the file of a script. -/
theorem gives_or_fault (r : Reader F) (earlier : List Script) (file : String × F) :
    (∃ s, Gives r file.2 s ∧ s.name ∉ earlier.map Script.name) ∨
      ∃ e, ScriptFault r earlier file e := by
  obtain ⟨name, f⟩ := file
  cases read : r.text? f with
  | error failure => exact .inr ⟨_, .unreadable read⟩
  | ok text =>
    cases means : r.script? text with
    | none => exact .inr ⟨_, .malformed read means⟩
    | some s =>
      by_cases steps : s.steps = []
      · exact .inr ⟨_, .noSteps read means steps⟩
      have gives : Gives r f s := ⟨⟨text, read, means⟩, steps⟩
      by_cases fresh : s.name ∈ earlier.map Script.name
      · exact .inr ⟨_, .duplicate gives fresh⟩
      · exact .inl ⟨s, gives, fresh⟩

/-! ## One file after the other -/

/-- Files give scripts, each one script, and all of them for different processes. -/
structure Accepted (r : Reader F) (files : List (String × F)) (scripts : List Script) : Prop where
  give : List.Forall₂ (fun file s => Gives r file.2 s) files scripts
  distinct : (scripts.map Script.name).Nodup

namespace Accepted

variable {files : List (String × F)} {scripts : List Script}

theorem nil : Accepted r [] [] := ⟨.nil, .nil⟩

theorem concat (accepted : Accepted r files scripts) {file : String × F} {s : Script}
    (gives : Gives r file.2 s) (fresh : s.name ∉ scripts.map Script.name) :
    Accepted r (files ++ [file]) (scripts ++ [s]) where
  give := List.rel_append accepted.give (.cons gives .nil)
  distinct := by
    rw [List.map_append]
    exact List.nodup_append.2 ⟨accepted.distinct, by simp, by
      rintro a ha b hb rfl
      exact fresh (List.mem_singleton.1 hb ▸ ha)⟩

/-- The scripts are given by the files in their order. -/
theorem gives (accepted : Accepted r files scripts) (i : Nat) (h : i < files.length) :
    ∃ h' : i < scripts.length, Gives r files[i].2 scripts[i] :=
  ⟨accepted.give.length_eq ▸ h, accepted.give.get h _⟩

/-- Each of the files gives one of the scripts. -/
theorem exists_gives (accepted : Accepted r files scripts) {file : String × F} (h : file ∈ files) :
    ∃ s ∈ scripts, Gives r file.2 s := by
  obtain ⟨i, hi, rfl⟩ := List.getElem_of_mem h
  obtain ⟨hi', gives⟩ := accepted.gives i hi
  exact ⟨scripts[i], List.getElem_mem hi', gives⟩

/-- Each of the scripts is given by one of the files. -/
theorem exists_file (accepted : Accepted r files scripts) {s : Script} (h : s ∈ scripts) :
    ∃ file ∈ files, Gives r file.2 s := by
  obtain ⟨i, hi, rfl⟩ := List.getElem_of_mem h
  have hi' : i < files.length := accepted.give.length_eq ▸ hi
  exact ⟨files[i], List.getElem_mem hi', (accepted.gives i hi').2⟩

/-- Two files that give scripts for one process are the same. -/
theorem eq_of_name (accepted : Accepted r files scripts) {file file' : String × F}
    (h : file ∈ files) (h' : file' ∈ files) {s s' : Script} (gives : Gives r file.2 s)
    (gives' : Gives r file'.2 s') (same : s.name = s'.name) : file = file' := by
  obtain ⟨i, hi, rfl⟩ := List.getElem_of_mem h
  obtain ⟨k, hk, rfl⟩ := List.getElem_of_mem h'
  obtain ⟨hi', hs⟩ := accepted.gives i hi
  obtain ⟨hk', hs'⟩ := accepted.gives k hk
  cases gives.eq hs
  cases gives'.eq hs'
  have names : (scripts.map Script.name)[i]? = (scripts.map Script.name)[k]? := by
    rw [List.getElem?_map, List.getElem?_map, List.getElem?_eq_getElem hi',
      List.getElem?_eq_getElem hk', Option.map_some, Option.map_some, same]
  cases (List.getElem?_inj (by rwa [List.length_map]) accepted.distinct).1 names
  rfl

end Accepted

/-- Files that are not at fault are gone through to the end. -/
theorem foldlM_of_give {files : List (String × F)} {earlier scripts : List Script}
    (give : List.Forall₂ (fun file s => Gives r file.2 s) files scripts)
    (distinct : ((earlier ++ scripts).map Script.name).Nodup) :
    files.foldlM (addScript r) earlier = .ok (earlier ++ scripts) := by
  induction give generalizing earlier with
  | nil =>
    rw [List.append_nil]
    rfl
  | @cons file s files scripts gives _ ih =>
    have fresh : s.name ∉ earlier.map Script.name := fun taken => by
      rw [List.map_append] at distinct
      exact (List.nodup_append.1 distinct).2.2 _ taken _ List.mem_cons_self rfl
    rw [List.append_cons] at distinct ⊢
    rw [List.foldlM_cons, gives.add fresh]
    exact ih distinct

/-- The files are gone through up to the first that is at fault. -/
theorem foldlM_addScript {read : List (String × F)} {earlier : List Script}
    (accepted : Accepted r read earlier) (files : List (String × F)) :
    (∃ scripts, Accepted r (read ++ files) scripts ∧
      files.foldlM (addScript r) earlier = .ok scripts) ∨
    ∃ before file after scripts e, read ++ files = before ++ file :: after ∧
      Accepted r before scripts ∧ ScriptFault r scripts file e ∧
        files.foldlM (addScript r) earlier = .error e := by
  -- what was read before, and the scripts that it gave, grow with every file
  induction files generalizing read earlier with
  | nil => exact .inl ⟨earlier, by rwa [List.append_nil], rfl⟩
  | cons file files ih =>
    obtain ⟨s, gives, fresh⟩ | ⟨e, fault⟩ := gives_or_fault r earlier file
    · have next := ih (accepted.concat gives fresh)
      rw [List.append_assoc, List.singleton_append] at next
      rw [List.foldlM_cons, gives.add fresh]
      exact next
    · refine .inr ⟨read, file, files, earlier, e, rfl, accepted, fault, ?_⟩
      rw [List.foldlM_cons, fault.add]
      rfl

/-! ## The order of the files -/

/-- The files of the scripts in the order of their names. -/
structure InOrder (sources : Sources F) (files : List (String × F)) : Prop where
  perm : files.Perm (sources.scripts.filter fun e => isScriptName e.1)
  ordered : InKeyOrder files

/-- The order is the only one. -/
theorem InOrder.unique {sources : Sources F} {files files' : List (String × F)}
    (h : InOrder sources files) (h' : InOrder sources files') : files = files' :=
  (h.perm.trans h'.perm.symm).eq_of_pairwise
    (fun _ _ _ _ below above => absurd (String.lt_trans below above) (String.lt_irrefl _))
    h.ordered h'.ordered

/-- The files are read in this order, in whatever order the folder lists them. -/
theorem inOrder_scriptFiles {sources : Sources F} (distinct : (sources.scripts.map (·.1)).Nodup) :
    InOrder sources (scriptFiles sources) where
  perm := List.mergeSort_perm _ _
  ordered := by
    have sorted : (scriptFiles sources).Pairwise fun a b => decide (a.1 ≤ b.1) = true :=
      List.pairwise_mergeSort (by simpa using fun _ _ _ _ _ _ => String.le_trans)
        (by simpa using fun _ _ _ _ => String.le_total _ _) _
    have names : ((scriptFiles sources).map (·.1)).Nodup :=
      ((List.mergeSort_perm _ _).map _).nodup_iff.2 (distinct.sublist (List.filter_sublist.map _))
    refine (sorted.and (List.pairwise_map.1 (List.nodup_iff_pairwise_ne.1 names))).imp ?_
    rintro a b ⟨le, ne⟩
    refine Classical.byContradiction fun ge => ne ?_
    exact String.le_antisymm (of_decide_eq_true le) (String.not_lt.1 ge)

/-- Two lists of the same files are read in one order. -/
theorem scriptFiles_of_perm {sources : Sources F} (distinct : (sources.scripts.map (·.1)).Nodup)
    {listed : List (String × F)} (perm : listed.Perm sources.scripts) :
    scriptFiles { sources with scripts := listed } = scriptFiles sources := by
  have order : InOrder { sources with scripts := listed } _ :=
    inOrder_scriptFiles ((perm.map _).nodup_iff.2 distinct)
  exact InOrder.unique ⟨order.perm.trans (perm.filter _), order.ordered⟩
    (inOrder_scriptFiles distinct)

/-! ## The whole project -/

/-- Nothing is wrong with a project: there are settings, the file of every script gives one, and the
names of no two of them are the same. -/
structure Sound (r : Reader F) (sources : Sources F) : Prop where
  settings : ∃ settings, GivesSettings r sources.settings settings
  scripts : ∀ file ∈ sources.scripts, isScriptName file.1 = true → ∃ s, Gives r file.2 s
  different : ∀ file ∈ sources.scripts, ∀ file' ∈ sources.scripts, isScriptName file.1 = true →
    isScriptName file'.1 = true → ∀ s s', Gives r file.2 s → Gives r file'.2 s' →
      s.name = s'.name → file = file'

/-- What a loaded project holds, and what a server makes of it. -/
structure Loaded (r : Reader F) (sources : Sources F) (p : Project) : Prop where
  settings : GivesSettings r sources.settings p.settings
  scripts : ∃ files, InOrder sources files ∧ Accepted r files p.scripts
  /-- A server serves the scripts as they are, and no others. -/
  served : ∀ name s, ((Server.ofScripts p.scripts).run (Server.script name)).1 = .ok s ↔
    s ∈ p.scripts ∧ s.name = name
  names : (Server.ofScripts p.scripts).processNames.Perm (p.scripts.map Script.name)
  ascending : (Server.ofScripts p.scripts).processNames.Pairwise (· < ·)

/-- What stops a project: a fault of the settings, or else that of the first file by name that is at
fault after those that are accepted. -/
inductive Blamed (r : Reader F) (sources : Sources F) : LoadError → Prop where
  | settings {e : LoadError} (fault : SettingsFault r sources.settings e)
      (belongs : e.file = .settings) : Blamed r sources e
  | script {settings : Settings} (sound : GivesSettings r sources.settings settings)
      {before after : List (String × F)} {file : String × F}
      (order : InOrder sources (before ++ file :: after)) {scripts : List Script}
      (accepted : Accepted r before scripts) {e : LoadError} (fault : ScriptFault r scripts file e)
      (belongs : e.file = .script file.1) : Blamed r sources e

/-- A server serves the scripts that it is made of, if they are for different processes. -/
theorem script_ofScripts {scripts : List Script} (distinct : (scripts.map Script.name).Nodup)
    (name : String) (s : Script) :
    ((Server.ofScripts scripts).run (Server.script name)).1 = .ok s ↔
      s ∈ scripts ∧ s.name = name := by
  have keys : ((scripts.map fun s => (s.name, s)).map (·.1)).Nodup := by rwa [List.map_map]
  have found : (Server.ofScripts scripts).scripts.get? name = some s ↔
      s ∈ scripts ∧ s.name = name := by
    rw [Server.ofScripts, KeyMap.get?_ofList_eq_some_iff keys, List.mem_map]
    constructor
    · rintro ⟨t, ht, e⟩
      cases e
      exact ⟨ht, rfl⟩
    · rintro ⟨hs, rfl⟩
      exact ⟨s, hs, rfl⟩
  rw [← found]
  cases h : (Server.ofScripts scripts).scripts.get? name with
  | none =>
    rw [Server.run_script_none h]
    exact iff_of_false nofun nofun
  | some t => rw [Server.run_script h, Except.ok.injEq, Option.some.injEq]

/-- The processes are those of the scripts. -/
theorem processNames_ofScripts {scripts : List Script}
    (distinct : (scripts.map Script.name).Nodup) :
    (Server.ofScripts scripts).processNames.Perm (scripts.map Script.name) := by
  have perm := @KeyMap.perm_keys_ofList _ (scripts.map fun s => (s.name, s))
    (by rwa [List.map_map])
  rwa [List.map_map] at perm

section Whole

variable {sources : Sources F}

theorem loaded {files : List (String × F)} {settings : Settings} {scripts : List Script}
    (order : InOrder sources files) (gives : GivesSettings r sources.settings settings)
    (accepted : Accepted r files scripts) : Loaded r sources ⟨settings, scripts⟩ where
  settings := gives
  scripts := ⟨files, order, accepted⟩
  served := script_ofScripts accepted.distinct
  names := processNames_ofScripts accepted.distinct
  ascending := List.pairwise_map.2 (KeyMap.ordered _)

/-- With settings it depends on the scripts what becomes of a project. -/
theorem GivesSettings.load_eq {settings : Settings}
    (gives : GivesSettings r sources.settings settings) :
    Project.load r sources =
      (scriptFiles sources).foldlM (addScript r) [] >>= fun scripts => .ok ⟨settings, scripts⟩ := by
  rw [Project.load, gives.load]
  rfl

/-- A project is loaded, or something is to blame. -/
theorem loaded_or_blamed (r : Reader F) (distinct : (sources.scripts.map (·.1)).Nodup) :
    (∃ p, Loaded r sources p ∧ load r sources = .ok p) ∨
      ∃ e, Blamed r sources e ∧ load r sources = .error e := by
  have order := inOrder_scriptFiles distinct
  obtain ⟨settings, gives⟩ | ⟨e, fault⟩ := givesSettings_or_fault r sources.settings
  · rcases foldlM_addScript (r := r) .nil (scriptFiles sources) with
      ⟨scripts, accepted, run⟩ | ⟨before, file, after, scripts, e, split, accepted, fault, run⟩
    · refine .inl ⟨⟨settings, scripts⟩, loaded order gives accepted, ?_⟩
      rw [gives.load_eq, run]
      rfl
    · rw [List.nil_append] at split
      refine .inr ⟨e, .script gives (split ▸ order) accepted fault fault.file, ?_⟩
      rw [gives.load_eq, run]
      rfl
  · refine .inr ⟨e, .settings fault fault.file, ?_⟩
    rw [load, fault.load]
    rfl

/-- What is loaded has nothing wrong with it. -/
theorem Loaded.sound {p : Project} (loaded : Loaded r sources p) : Sound r sources := by
  obtain ⟨files, order, accepted⟩ := loaded.scripts
  have mem {file : String × F} (h : file ∈ sources.scripts) (isScript : isScriptName file.1 = true) :
      file ∈ files := order.perm.mem_iff.2 (List.mem_filter.2 ⟨h, isScript⟩)
  refine ⟨⟨_, loaded.settings⟩, fun file h isScript => ?_, ?_⟩
  · obtain ⟨s, -, gives⟩ := accepted.exists_gives (mem h isScript)
    exact ⟨s, gives⟩
  · intro file h file' h' isScript isScript' s s' gives gives' same
    exact accepted.eq_of_name (mem h isScript) (mem h' isScript') gives gives' same

theorem GivesSettings.not_fault {o : Option F} {settings : Settings}
    (gives : GivesSettings r o settings) {e : LoadError} : ¬ SettingsFault r o e := by
  intro fault
  cases gives.load.symm.trans fault.load

/-- Of a project that has nothing wrong with it nothing is to blame. -/
theorem Sound.not_blamed (sound : Sound r sources) {e : LoadError} : ¬ Blamed r sources e := by
  intro blamed
  cases blamed with
  | settings fault =>
    obtain ⟨settings, gives⟩ := sound.settings
    exact gives.not_fault fault
  | @script _ _ before after file order scripts accepted e fault =>
    have mem {g : String × F} (h : g ∈ before ++ file :: after) :
        g ∈ sources.scripts ∧ isScriptName g.1 = true :=
      List.mem_filter.1 (order.perm.mem_iff.1 h)
    obtain ⟨there, isScript⟩ := mem (List.mem_append_right _ List.mem_cons_self)
    obtain ⟨s, gives⟩ := sound.scripts file there isScript
    by_cases fresh : s.name ∈ scripts.map Script.name
    · -- an earlier file gives a script for the process, but the files are different
      obtain ⟨t, ht, same⟩ := List.mem_map.1 fresh
      obtain ⟨g, hg, gives'⟩ := accepted.exists_file ht
      obtain ⟨there', isScript'⟩ := mem (List.mem_append_left _ hg)
      have eq := sound.different g there' file there isScript' isScript t s gives' gives same
      have below := (List.pairwise_append.1 order.ordered).2.2 g hg file List.mem_cons_self
      exact String.lt_irrefl _ (eq ▸ below)
    · cases (gives.add fresh).symm.trans fault.add

/-- What is to blame is told. -/
theorem Blamed.load (distinct : (sources.scripts.map (·.1)).Nodup) {e : LoadError}
    (blamed : Blamed r sources e) : Project.load r sources = .error e := by
  cases blamed with
  | settings fault =>
    rw [Project.load, fault.load]
    rfl
  | script gives order accepted fault =>
    have run : List.foldlM (addScript r) [] _ = .ok _ :=
      foldlM_of_give accepted.give accepted.distinct
    rw [gives.load_eq, (inOrder_scriptFiles distinct).unique order, List.foldlM_append, run]
    simp only [bind, Except.bind, List.nil_append, List.foldlM_cons, fault.add]

/-- **Which projects are loaded, and what stops the others.** However the folder lists its files, a
project is loaded exactly if nothing is wrong with it; then it holds the scripts of the files in the order
of their names, and a server serves these. Otherwise the first fault is told, that of the settings before
those of the scripts, and of two files for one process the later by name is at fault. -/
theorem load_exact (r : Reader F) (sources : Sources F)
    (distinct : (sources.scripts.map (·.1)).Nodup) :
    ((∃ p, load r sources = .ok p) ↔ Sound r sources) ∧
      (∀ p, load r sources = .ok p → Loaded r sources p) ∧
      (∀ e, load r sources = .error e ↔ Blamed r sources e) ∧
      ∀ listed, listed.Perm sources.scripts →
        load r { sources with scripts := listed } = load r sources := by
  have holds (p : Project) (h : load r sources = .ok p) : Loaded r sources p := by
    obtain ⟨q, loaded, hq⟩ | ⟨e, -, he⟩ := loaded_or_blamed r distinct
    · cases hq.symm.trans h
      exact loaded
    · cases he.symm.trans h
  have told (e : LoadError) : load r sources = .error e ↔ Blamed r sources e := by
    refine ⟨fun h => ?_, Blamed.load distinct⟩
    obtain ⟨q, -, hq⟩ | ⟨e', blamed, he⟩ := loaded_or_blamed r distinct
    · cases hq.symm.trans h
    · cases he.symm.trans h
      exact blamed
  refine ⟨⟨fun ⟨p, hp⟩ => (holds p hp).sound, fun sound => ?_⟩, holds, told, fun listed perm => ?_⟩
  · cases result : load r sources with
    | ok p => exact ⟨p, rfl⟩
    | error e => exact absurd ((told e).1 result) sound.not_blamed
  · rw [load, load, scriptFiles_of_perm distinct perm]

end Whole

/-- The script to take an order. -/
def orderScript : Script := ⟨"Order", "", [⟨"Address", none, [], false, false, false, []⟩]⟩

/-- The same as a file. -/
def orderFile : String := "name: Order\nsteps:\n- step: Address\n"

/-- Files are their texts, and the only script is that to take an order. -/
def orderReader : Reader String where
  text? := .ok
  settings? _ := none
  script? text := if text = orderFile then some orderScript else none

/-- The script to take an order lies in two files, and the later is listed first. -/
def orderSources : Sources String :=
  ⟨none, [("b.yml", orderFile), ("notes.txt", "to do"), ("a.yaml", orderFile)]⟩

/-- The later file is at fault. -/
theorem load_orderSources :
    load orderReader orderSources = .error (.duplicate "b.yml" "Order") := by
  have gives : Gives orderReader orderFile orderScript := ⟨⟨orderFile, rfl, rfl⟩, nofun⟩
  have order : InOrder orderSources ([("a.yaml", orderFile)] ++ ("b.yml", orderFile) :: []) :=
    ⟨List.Perm.swap _ _ _, List.pairwise_pair.2 (by decide)⟩
  exact ((load_exact orderReader orderSources (by decide)).2.2.1 _).2
    (.script .standard order ⟨.cons gives .nil, by simp⟩ (.duplicate gives (by simp)) rfl)

end Stepwise.Project
