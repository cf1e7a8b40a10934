import Domoio.Lib.Unfolding
import Domoio.Lib.CText

/-
  File:      Domoio/Require.lean
  Subject:   Loading the user's scripts (src/jsengine/framework/application.js, core/domoio.coffee).

  `require` runs the file it finds and returns the exports object that run has made. It remembers
  nothing, so a file is run by every `require` of it, with an exports object each time, and a cycle of
  files is run for ever. `loadsOnce_exact` says for which scripts that makes no difference: those of
  which no file is required twice. `emitEvents_boot` says what becomes of a listener registered with
  `require('domoio').onAll`: the object it is registered on is not the one that emits.
-/

namespace Domoio.js

open Lib RootedGraph

/-! ## 1. The code -/

/-- What a script does with `require`: the names it requires, and the listeners it registers with
    `require('domoio').onAll`. -/
inductive Statement (γ : Type) where
  | require (name : Bytes)
  | onAll (callback : γ)

/-- The name that a statement requires. -/
def Statement.name {γ : Type} : Statement γ → Bytes
  | require name => name
  | onAll _ => ascii "domoio"

/-- The script files: `__DOMOIO_CORE_ROOT`, `__DOMOIO_USER_ROOT`, the file that there is at a path
    (`__file_exists`), and the statements that a file runs. -/
structure Scripts (F γ : Type) where
  coreRoot : Bytes
  userRoot : Bytes
  file : Bytes → Option F
  script : F → List (Statement γ)

/-- A file as it is loaded: the directory its own `require` is built for, and whether it has to be
    compiled. -/
structure Module (F : Type) where
  file : F
  pwd : Bytes
  coffee : Bool

/-- `path.substring(0, path.lastIndexOf("/"))`. -/
def basePath (path : Bytes) : Bytes := (path.reverse.dropWhile (· != 47)).tail.reverse

/-- What has been loaded: each file with the exports object of that load, in order, and the listeners
    with the `Domoio` they are registered on. An object is named by how many there were before it. -/
structure Engine (F γ : Type) where
  loads : List (F × Nat)
  listeners : List (Nat × γ)

/-- What `require` returns: `false`, or an exports object. -/
inductive Required where
  | missing
  | exports (object : Nat)

namespace Engine

variable {F γ : Type} (e : Engine F γ)

def initial : Engine F γ := ⟨[], []⟩

/-- `var module = { exports: {} }`. -/
def load (file : F) : Engine F γ := { e with loads := e.loads ++ [(file, e.loads.length)] }

/-- `onAll: (callback) -> @allEventsListeners.push callback`. -/
def onAll (domoio : Nat) (callback : γ) : Engine F γ :=
  { e with listeners := e.listeners ++ [(domoio, callback)] }

/-- `__emit_events`: the listeners that `domoio.emit` calls with the event, in order. -/
def emitEvents : Required → List γ
  | .missing => []
  | .exports domoio => (e.listeners.filter fun l => l.1 == domoio).map Prod.snd

end Engine

/-- The run of a script, with the `require` it is given. A `Domoio` that is missing has no `onAll`;
    there always is one (`Disk`). -/
def runScript {F γ : Type} (require : Bytes → Engine F γ → Option (Required × Engine F γ)) :
    List (Statement γ) → Engine F γ → Option (Engine F γ)
  | [], e => some e
  | .require name :: rest, e => do
      let (_, e) ← require name e
      runScript require rest e
  | .onAll callback :: rest, e => do
      let (domoio, e) ← require (ascii "domoio") e
      match domoio with
      | .missing => runScript require rest e
      | .exports object => runScript require rest (e.onAll object callback)

namespace Scripts

variable {F γ : Type} (s : Scripts F γ)

/-- The file that `require` finds for a name. -/
def resolve (pwd name : Bytes) : Option (Module F) :=
  let baseFilename :=
    if ascii "." <+: name then pwd ++ ascii "/" ++ name
    else if ascii "/" <+: name then name
    else s.coreRoot ++ ascii "/core/" ++ name
  match s.file (baseFilename ++ ascii ".coffee") with
  | some file => some { file, pwd := basePath baseFilename, coffee := true }
  | none =>
      match s.file (baseFilename ++ ascii ".js") with
      | some file => some { file, pwd := basePath baseFilename, coffee := false }
      | none => none

/-- `__buildRequire(pwd)(name)`. The fuel bounds the nesting; `none` is a `require` that it is too
    little for. -/
def require : Nat → Bytes → Bytes → Engine F γ → Option (Required × Engine F γ)
  | 0, _, _, _ => none
  | fuel + 1, pwd, name, e =>
      match s.resolve pwd name with
      | none => some (.missing, e)
      | some m => do
          let e' ← runScript (require fuel m.pwd) (s.script m.file) (e.load m.file)
          return (.exports e.loads.length, e')

/-- `application.js`: the engine when it is through, and its `domoio`. -/
def boot (fuel : Nat) : Option (Required × Engine F γ) := do
  let require := s.require fuel s.coreRoot
  let (_, e) ← require (ascii "./vendor/coffee-script/lib/coffee-script/coffee-script") .initial
  let (_, e) ← require (ascii "console") e
  let (domoio, e) ← require (ascii "domoio") e
  let (_, e) ← require (s.userRoot ++ ascii "/application") e
  return (domoio, e)

/-! ## 2. The graph of the files -/

/-- The statements of `application.js`. -/
def bootstrap : List (Statement γ) :=
  [.require (ascii "./vendor/coffee-script/lib/coffee-script/coffee-script"),
    .require (ascii "console"), .require (ascii "domoio"),
    .require (s.userRoot ++ ascii "/application")]

/-- The statements of a module, `none` being `application.js`. -/
def statements : Option (Module F) → List (Statement γ)
  | none => s.bootstrap
  | some m => s.script m.file

/-- The directory of a module. -/
def pwd : Option (Module F) → Bytes
  | none => s.coreRoot
  | some m => m.pwd

/-- Which module requires which: an edge for each statement whose name resolves. -/
def graph : RootedGraph (Option (Module F)) (Option F) where
  root := none
  next n i := (s.statements n)[i]?.bind fun t => (s.resolve (s.pwd n) t.name).map some
  label n := n.map Module.file

/-- No file is required twice: among the statements of the files reached from `application.js`, its
    own included, no two have names that resolve to one file. -/
def NoneTwice : Prop := s.graph.Once

end Scripts

/-- Script files with an engine in which they can run: the core modules are there, and the files that
    the compiler requires have no need of it. -/
structure Disk (F γ : Type) extends Scripts F γ where
  core : ∀ t ∈ toScripts.bootstrap.take 3, (toScripts.resolve coreRoot t.name).isSome
  compiler : ∀ a m, toScripts.graph.nodeAt (a ++ [0]) = some (some m) → m.coffee = false

/-- Loading ends, a file has one exports object, and a listener is called with every event. -/
structure Disk.LoadsOnce {F γ : Type} (disk : Disk F γ) : Prop where
  terminates : ∃ fuel booted, disk.boot fuel = some booted
  shared : ∀ fuel domoio e, disk.boot fuel = some (domoio, e) →
    ∀ l ∈ e.loads, ∀ l' ∈ e.loads, l.1 = l'.1 → l.2 = l'.2
  heard : ∀ fuel domoio e, disk.boot fuel = some (domoio, e) →
    ∀ l ∈ e.listeners, l.2 ∈ e.emitEvents domoio

variable {F γ : Type} {s : Scripts F γ} {e e' e₀ : Engine F γ} {a : List Nat}
  {n : Option (Module F)} {m : Module F} {i fuel : Nat} {r : Required} {name : Bytes}

/-! ## 3. One `require` -/

/-- A `require` that comes back has found no file, or has loaded one. -/
theorem require_cases (h : s.require (fuel + 1) (s.pwd n) name e = some (r, e')) :
    (s.resolve (s.pwd n) name = none ∧ r = .missing ∧ e' = e) ∨
    ∃ m, s.resolve (s.pwd n) name = some m ∧ r = .exports e.loads.length ∧
      runScript (s.require fuel m.pwd) (s.script m.file) (e.load m.file) = some e' := by
  rw [Scripts.require] at h
  cases hresolve : s.resolve (s.pwd n) name with
  | none =>
      rw [hresolve] at h
      cases h
      exact .inl ⟨rfl, rfl, rfl⟩
  | some m =>
      rw [hresolve] at h
      obtain ⟨e₁, hrun, hret⟩ := Option.bind_eq_some_iff.mp h
      cases hret
      exact .inr ⟨m, rfl, rfl, hrun⟩

/-- A statement requires its name, and registers its listener on what that returns. -/
theorem runScript_cons_eq_some {require : Bytes → Engine F γ → Option (Required × Engine F γ)}
    {t : Statement γ} {rest : List (Statement γ)} (h : runScript require (t :: rest) e = some e') :
    ∃ r e₁, require t.name e = some (r, e₁) ∧
      ((runScript require rest e₁ = some e') ∨
        ∃ callback object, t = .onAll callback ∧ r = .exports object ∧
          runScript require rest (e₁.onAll object callback) = some e') := by
  cases t with
  | require name =>
      obtain ⟨⟨r, e₁⟩, hreq, hrest⟩ := Option.bind_eq_some_iff.mp h
      exact ⟨r, e₁, hreq, .inl hrest⟩
  | onAll callback =>
      obtain ⟨⟨r, e₁⟩, hreq, hrest⟩ := Option.bind_eq_some_iff.mp h
      cases r with
      | missing => exact ⟨_, e₁, hreq, .inl hrest⟩
      | exports object => exact ⟨_, e₁, hreq, .inr ⟨callback, object, rfl, rfl, hrest⟩⟩

/-- The edge of a statement. -/
theorem next_eq {t : Statement γ} (ht : (s.statements n)[i]? = some t) :
    s.graph.next n i = (s.resolve (s.pwd n) t.name).map some := by
  show ((s.statements n)[i]?.bind fun t => (s.resolve (s.pwd n) t.name).map some) = _
  rw [ht, Option.bind_some]

theorem rooted : s.graph.Rooted := by
  intro m i n hn hlabel
  obtain ⟨t, -, ht⟩ := Option.bind_eq_some_iff.mp hn
  obtain ⟨m', -, rfl⟩ := Option.map_eq_some_iff.mp ht
  cases hlabel

/-! ## 4. A run -/

/-- The file at an address. -/
def Scripts.fileAt (s : Scripts F γ) (a : List Nat) : Option F :=
  (s.graph.nodeAt a).bind s.graph.label

/-- The exports objects are the numbers of their loads. -/
def Engine.Numbered (e : Engine F γ) : Prop := e.loads.map Prod.snd = List.range e.loads.length

/-- A reached module has a statement that registers the listener. -/
def Scripts.Registers (s : Scripts F γ) (callback : γ) : Prop :=
  ∃ (n : Option (Module F)) (i : Nat), s.graph.Reached n ∧ (s.statements n)[i]? = some (.onAll callback)

/-- What a run does to the engine: it loads the files at the addresses it visits, with an object each,
    and its listeners are on objects of its own. -/
structure Visits (s : Scripts F γ) (visited : List (List Nat)) (e e' : Engine F γ) : Prop where
  files : e'.loads.map (fun l => some l.1) = e.loads.map (fun l => some l.1) ++ visited.map s.fileAt
  numbered : e.Numbered → e'.Numbered
  listeners : ∀ l ∈ e'.listeners, l ∈ e.listeners ∨
    (e.loads.length ≤ l.1 ∧ l.1 < e'.loads.length ∧ s.Registers l.2)

namespace Visits

variable {visited more : List (List Nat)}

theorem length_loads (h : Visits s visited e e') :
    e'.loads.length = e.loads.length + visited.length := by
  have hlen := congrArg List.length h.files
  rw [List.length_append, List.length_map, List.length_map, List.length_map] at hlen
  exact hlen

theorem refl (s : Scripts F γ) (e : Engine F γ) : Visits s [] e e where
  files := by rw [List.map_nil, List.append_nil]
  numbered := id
  listeners l hl := .inl hl

theorem trans (h₀ : Visits s visited e₀ e) (h : Visits s more e e') :
    Visits s (visited ++ more) e₀ e' where
  files := by rw [h.files, h₀.files, List.map_append, List.append_assoc]
  numbered hnum := h.numbered (h₀.numbered hnum)
  listeners l hl := by
    have hlen₀ := h₀.length_loads
    have hlen := h.length_loads
    rcases h.listeners l hl with hl | ⟨hle, hlt, hreg⟩
    · rcases h₀.listeners l hl with hl | ⟨hle, hlt, hreg⟩
      · exact .inl hl
      · exact .inr ⟨hle, by omega, hreg⟩
    · exact .inr ⟨by omega, hlt, hreg⟩

theorem load (hm : s.graph.nodeAt a = some (some m)) : Visits s [a] e (e.load m.file) where
  files := by
    have hfile : s.fileAt a = some m.file := by
      rw [Scripts.fileAt, hm]
      rfl
    rw [Engine.load, List.map_append, List.map_singleton, List.map_singleton, hfile]
  numbered hnum := by
    rw [Engine.Numbered, Engine.load, List.map_append, hnum, List.length_append,
      List.length_singleton, List.range_succ]
    rfl
  listeners l hl := .inl hl

theorem onAll {object : Nat} {callback : γ} (h : Visits s visited e₀ e)
    (hle : e₀.loads.length ≤ object) (hlt : object < e.loads.length) (hreg : s.Registers callback) :
    Visits s visited e₀ (e.onAll object callback) where
  files := h.files
  numbered hnum := h.numbered hnum
  listeners l hl := by
    rcases List.mem_append.mp hl with hl | hl
    · exact h.listeners l hl
    · cases List.mem_singleton.mp hl
      exact .inr ⟨hle, hlt, hreg⟩

end Visits

/-- What a `require` of a statement of a module does, if it comes back. -/
def RequireVisits (s : Scripts F γ) (fuel : Nat) (n : Option (Module F)) (a : List Nat) : Prop :=
  ∀ i t e r e', (s.statements n)[i]? = some t → s.require fuel (s.pwd n) t.name e = some (r, e') →
    (∃ visited, s.graph.Lists (i :: a) visited ∧ Visits s visited e e') ∧
      ∀ object, r = .exports object → e.loads.length ≤ object ∧ object < e'.loads.length

/-- A script visits what is below its module's statements, from the one it is at. -/
theorem runScript_visits {visited : List (List Nat)} {rest : List (Statement γ)}
    (hn : s.graph.nodeAt a = some n) (hreq : RequireVisits s fuel n a)
    (hrest : (s.statements n).drop i = rest) (hbelow : s.graph.ListsBelow a i visited)
    (hvisits : Visits s visited e₀ e)
    (hrun : runScript (s.require fuel (s.pwd n)) rest e = some e') :
    ∃ visited, s.graph.ListsBelow a (i + rest.length) visited ∧ Visits s visited e₀ e' := by
  induction rest generalizing i visited e with
  | nil =>
      cases hrun
      exact ⟨visited, hbelow, hvisits⟩
  | cons t rest ih =>
      have ht : (s.statements n)[i]? = some t := by
        rw [← Nat.add_zero i, ← List.getElem?_drop, hrest, List.getElem?_cons_zero]
      have hdrop : (s.statements n).drop (i + 1) = rest := by
        rw [← List.drop_drop, hrest, List.drop_one, List.tail_cons]
      obtain ⟨r, e₁, hr, hcont⟩ := runScript_cons_eq_some hrun
      obtain ⟨⟨more, hlists, hmore⟩, hobject⟩ := hreq i t e r e₁ ht hr
      have hvisits₁ := hvisits.trans hmore
      have hlen : i + (rest.length + 1) = i + 1 + rest.length := by omega
      rw [List.length_cons, hlen]
      rcases hcont with hcont | ⟨callback, object, rfl, hexports, hcont⟩
      · exact ih hdrop (hbelow.succ hlists) hvisits₁ hcont
      · obtain ⟨hle, hlt⟩ := hobject object hexports
        have hreg : s.Registers callback := ⟨n, i, reached_iff.mpr ⟨a, hn⟩, ht⟩
        have hle₀ : e₀.loads.length ≤ object := by
          have := hvisits.length_loads
          omega
        exact ih hdrop (hbelow.succ hlists) (hvisits₁.onAll hle₀ hlt hreg) hcont

/-- A script visits what is below its module. -/
theorem script_visits (hn : s.graph.nodeAt a = some n) (hreq : RequireVisits s fuel n a)
    (hrun : runScript (s.require fuel (s.pwd n)) (s.statements n) e = some e') :
    ∃ visited, s.graph.Lists a (a :: visited) ∧ Visits s visited e e' := by
  obtain ⟨visited, hbelow, hvisits⟩ :=
    runScript_visits hn hreq (List.drop_zero) .zero (.refl s e) hrun
  refine ⟨visited, .node hn ?_ hbelow, hvisits⟩
  intro i hi
  obtain ⟨_, hnext⟩ := Option.isSome_iff_exists.mp hi
  obtain ⟨t, ht, -⟩ := Option.bind_eq_some_iff.mp hnext
  rw [Nat.zero_add]
  exact (List.getElem?_eq_some_iff.mp ht).1

/-- The induction is on the fuel: a file's own `require` has one less. -/
theorem require_visits (fuel : Nat) (hn : s.graph.nodeAt a = some n) : RequireVisits s fuel n a := by
  induction fuel generalizing n a with
  | zero =>
      intro i t e r e' ht h
      cases h
  | succ fuel ih =>
      intro i t e r e' ht h
      have hchild := (nodeAt_cons (i := i) hn).trans (next_eq ht)
      rcases require_cases h with ⟨hnone, rfl, rfl⟩ | ⟨m, hm, rfl, hrun⟩
      · rw [hnone, Option.map_none] at hchild
        refine ⟨⟨[], .none hchild, .refl s e'⟩, ?_⟩
        intro object hobject
        cases hobject
      · rw [hm, Option.map_some] at hchild
        obtain ⟨visited, hlists, hvisits⟩ := script_visits hchild (ih hchild) hrun
        have hload := (Visits.load (e := e) hchild).trans hvisits
        refine ⟨⟨_, hlists, hload⟩, ?_⟩
        intro object hobject
        cases hobject
        have hlen := hload.length_loads
        rw [List.singleton_append, List.length_cons] at hlen
        exact ⟨Nat.le_refl _, by omega⟩

/-! ## 5. Whether it ends -/

/-- A script comes back if each `require` of its statements does. -/
theorem exists_runScript {require : Bytes → Engine F γ → Option (Required × Engine F γ)}
    {statements : List (Statement γ)}
    (hreq : ∀ t ∈ statements, ∀ e, ∃ r e', require t.name e = some (r, e')) :
    ∃ e', runScript require statements e = some e' := by
  induction statements generalizing e with
  | nil => exact ⟨e, rfl⟩
  | cons t rest ih =>
      obtain ⟨r, e₁, hr⟩ := hreq t List.mem_cons_self e
      have hrest : ∀ e, ∃ e', runScript require rest e = some e' := by
        intro e
        exact ih (fun t ht => hreq t (List.mem_cons_of_mem _ ht))
      cases t with
      | require name =>
          obtain ⟨e', he'⟩ := hrest e₁
          exact ⟨e', Option.bind_eq_some_iff.mpr ⟨_, hr, he'⟩⟩
      | onAll callback =>
          cases r with
          | missing =>
              obtain ⟨e', he'⟩ := hrest e₁
              exact ⟨e', Option.bind_eq_some_iff.mpr ⟨_, hr, he'⟩⟩
          | exports object =>
              obtain ⟨e', he'⟩ := hrest (e₁.onAll object callback)
              exact ⟨e', Option.bind_eq_some_iff.mpr ⟨_, hr, he'⟩⟩

/-- The fuel is enough where the files nest no deeper. -/
theorem exists_require {depth : Nat} {t : Statement γ}
    (hdepth : ∀ b, (s.graph.nodeAt b).isSome → b.length < depth) (hn : s.graph.nodeAt a = some n)
    (ht : t ∈ s.statements n) (hfuel : depth ≤ a.length + fuel) :
    ∃ r e', s.require fuel (s.pwd n) t.name e = some (r, e') := by
  induction fuel generalizing a n t e with
  | zero =>
      have ha := hdepth a (Option.isSome_iff_exists.mpr ⟨n, hn⟩)
      omega
  | succ fuel ih =>
      rw [Scripts.require]
      cases hresolve : s.resolve (s.pwd n) t.name with
      | none => exact ⟨_, _, rfl⟩
      | some m =>
          obtain ⟨i, hi⟩ := List.getElem?_of_mem ht
          have hchild := (nodeAt_cons (i := i) hn).trans (next_eq hi)
          rw [hresolve, Option.map_some] at hchild
          have hlen : depth ≤ (i :: a).length + fuel := by
            rw [List.length_cons]
            omega
          obtain ⟨e', he'⟩ := exists_runScript (e := e.load m.file) fun t ht e =>
            ih (t := t) (e := e) hchild ht hlen
          exact ⟨_, e', Option.bind_eq_some_iff.mpr ⟨e', he', rfl⟩⟩

/-- The four `require`s of `application.js`. -/
theorem boot_cases {domoio : Required} (h : s.boot fuel = some (domoio, e)) :
    ∃ r₁ e₁ r₂ e₂ e₃ r₄,
      s.require fuel s.coreRoot (ascii "./vendor/coffee-script/lib/coffee-script/coffee-script")
        .initial = some (r₁, e₁) ∧
      s.require fuel s.coreRoot (ascii "console") e₁ = some (r₂, e₂) ∧
      s.require fuel s.coreRoot (ascii "domoio") e₂ = some (domoio, e₃) ∧
      s.require fuel s.coreRoot (s.userRoot ++ ascii "/application") e₃ = some (r₄, e) := by
  obtain ⟨⟨r₁, e₁⟩, h₁, h⟩ := Option.bind_eq_some_iff.mp h
  obtain ⟨⟨r₂, e₂⟩, h₂, h⟩ := Option.bind_eq_some_iff.mp h
  obtain ⟨⟨r₃, e₃⟩, h₃, h⟩ := Option.bind_eq_some_iff.mp h
  obtain ⟨⟨r₄, e₄⟩, h₄, h⟩ := Option.bind_eq_some_iff.mp h
  cases h
  exact ⟨r₁, e₁, r₂, e₂, e₃, r₄, h₁, h₂, h₃, h₄⟩

/-- `application.js` is a script. -/
theorem runScript_bootstrap {domoio : Required} (h : s.boot fuel = some (domoio, e)) :
    runScript (s.require fuel s.coreRoot) s.bootstrap .initial = some e := by
  obtain ⟨r₁, e₁, r₂, e₂, e₃, r₄, h₁, h₂, h₃, h₄⟩ := boot_cases h
  simp [Scripts.bootstrap, runScript, h₁, h₂, h₃, h₄]

/-- What `application.js` goes through: everything. -/
theorem boot_visits {domoio : Required} (h : s.boot fuel = some (domoio, e)) :
    ∃ visited, s.graph.Lists [] ([] :: visited) ∧ Visits s visited .initial e :=
  script_visits (n := none) rfl (require_visits fuel rfl) (runScript_bootstrap h)

/-- `application.js` ends where the files nest no deeper than to some depth. -/
theorem boot_terminates_iff : (∃ fuel booted, s.boot fuel = some booted) ↔
    ∃ depth, ∀ a, (s.graph.nodeAt a).isSome → a.length < depth := by
  constructor
  · rintro ⟨fuel, ⟨domoio, e⟩, h⟩
    obtain ⟨visited, hlists, -⟩ := boot_visits h
    exact hlists.bounded
  · rintro ⟨depth, hdepth⟩
    have hreq : ∀ t ∈ s.bootstrap, ∀ e, ∃ r e', s.require depth s.coreRoot t.name e = some (r, e') := by
      intro t ht e
      exact exists_require (n := none) (a := []) hdepth rfl ht (by simp)
    obtain ⟨r₁, e₁, h₁⟩ := hreq (.require _) (List.mem_cons_self) .initial
    obtain ⟨r₂, e₂, h₂⟩ := hreq (.require (ascii "console")) (by simp [Scripts.bootstrap]) e₁
    obtain ⟨r₃, e₃, h₃⟩ := hreq (.require (ascii "domoio")) (by simp [Scripts.bootstrap]) e₂
    obtain ⟨r₄, e₄, h₄⟩ := hreq (.require (s.userRoot ++ ascii "/application"))
      (by simp [Scripts.bootstrap]) e₃
    refine ⟨depth, (r₃, e₄), ?_⟩
    simp only [Statement.name] at h₁ h₂ h₃ h₄
    simp [Scripts.boot, h₁, h₂, h₃, h₄]

/-! ## 6. Whom an event reaches -/

/-- Before the object there were others, and its load and what follows make others again. -/
theorem emitEvents_eq_nil {file : F} {e₂ e₃ : Engine F γ} {v v₃ v₄ : List (List Nat)}
    (h₂ : Visits s v .initial e₂) (h₃ : Visits s v₃ (e₂.load file) e₃) (h₄ : Visits s v₄ e₃ e) :
    e.emitEvents (.exports e₂.loads.length) = [] := by
  have hload : (e₂.load file).loads.length = e₂.loads.length + 1 := by
    rw [Engine.load, List.length_append, List.length_singleton]
  have hlen := h₃.length_loads
  have hother : ∀ l ∈ e.listeners, l.1 ≠ e₂.loads.length := by
    intro l hl
    rcases h₄.listeners l hl with hl | ⟨hle, -⟩
    · rcases h₃.listeners l hl with hl | ⟨hle, -⟩
      · rcases h₂.listeners l hl with hl | ⟨-, hlt, -⟩
        · cases hl
        · exact hlt.ne
      · omega
    · omega
  rw [Engine.emitEvents, List.map_eq_nil_iff, List.filter_eq_nil_iff]
  intro l hl heq
  exact hother l hl (beq_iff_eq.mp heq)

/-- No listener is called, whatever the scripts have registered. `application.js` has its `domoio` from
    a `require` of its own, and a script registers its listeners on the object of another. -/
theorem emitEvents_boot {domoio : Required} (h : s.boot fuel = some (domoio, e)) :
    e.emitEvents domoio = [] := by
  obtain ⟨r₁, e₁, r₂, e₂, e₃, r₄, h₁, h₂, h₃, h₄⟩ := boot_cases h
  have hroot := fun fuel => require_visits (s := s) (n := none) (a := []) fuel rfl
  obtain ⟨⟨v₁, -, hv₁⟩, -⟩ := hroot fuel 0 _ _ _ _ rfl h₁
  obtain ⟨⟨v₂, -, hv₂⟩, -⟩ := hroot fuel 1 _ _ _ _ rfl h₂
  obtain ⟨⟨v₄, -, hv₄⟩, -⟩ := hroot fuel 3 _ _ _ _ rfl h₄
  cases fuel with
  | zero => cases h₁
  | succ fuel =>
      rcases require_cases (n := none) h₃ with ⟨-, rfl, -⟩ | ⟨m, hm, rfl, hrun⟩
      · rfl
      · have hchild : s.graph.nodeAt [2] = some (some m) := by
          rw [nodeAt_cons (m := none) rfl, next_eq (t := .require (ascii "domoio")) rfl]
          exact congrArg (Option.map some) hm
        obtain ⟨v₃, -, hv₃⟩ := script_visits hchild (require_visits fuel hchild) hrun
        exact emitEvents_eq_nil (hv₁.trans hv₂) hv₃ hv₄

/-! ## 7. Loading once -/

/-- What is loaded are the files at the addresses visited, in order. -/
theorem getElem?_loads {visited : List (List Nat)} {file : F} {object k : Nat}
    (h : Visits s visited .initial e) : e.loads[k]? = some (file, object) ↔
      object = k ∧ ∃ b, visited[k]? = some b ∧ s.fileAt b = some file := by
  have hfiles := congrArg (fun l => l[k]?) h.files
  have hnum := congrArg (fun l => l[k]?) (h.numbered rfl)
  simp only [Engine.initial, List.map_nil, List.nil_append, List.getElem?_map] at hfiles hnum
  cases hl : e.loads[k]? with
  | none =>
      rw [hl, Option.map_none] at hfiles
      cases hb : visited[k]? with
      | none => simp
      | some b =>
          rw [hb] at hfiles
          cases hfiles
  | some l =>
      rw [hl, Option.map_some] at hfiles hnum
      have hk : k < e.loads.length := (List.getElem?_eq_some_iff.mp hl).1
      rw [List.getElem?_range hk] at hnum
      cases hb : visited[k]? with
      | none =>
          rw [hb] at hfiles
          cases hfiles
      | some b =>
          rw [hb] at hfiles
          have hfile : some l.1 = s.fileAt b := Option.some.inj hfiles
          have hobject : l.2 = k := Option.some.inj hnum
          constructor
          · intro heq
            cases heq
            exact ⟨hobject, b, rfl, hfile.symm⟩
          · rintro ⟨rfl, b', hb', hfile'⟩
            cases hb'
            rw [hfile'] at hfile
            exact congrArg some (Prod.ext (Option.some.inj hfile) hobject)

/-- Every edge is gone through, with its file. -/
theorem exists_load {visited : List (List Nat)} (hlists : s.graph.Lists [] ([] :: visited))
    (hvisits : Visits s visited .initial e) (hm : s.graph.nodeAt (i :: a) = some (some m)) :
    ∃ k : Nat, visited[k]? = some (i :: a) ∧ e.loads[k]? = some (m.file, k) := by
  have hmem : i :: a ∈ [] :: visited :=
    hlists.mem_root.mpr (Option.isSome_iff_exists.mpr ⟨some m, hm⟩)
  rcases List.mem_cons.mp hmem with hnil | hmem
  · cases hnil
  · obtain ⟨k, hk⟩ := List.getElem?_of_mem hmem
    refine ⟨k, hk, (getElem?_loads hvisits).mpr ⟨rfl, _, hk, ?_⟩⟩
    rw [Scripts.fileAt, hm]
    rfl

/-- A core module is the same one from everywhere. -/
theorem resolve_domoio (s : Scripts F γ) (pwd pwd' : Bytes) :
    s.resolve pwd (ascii "domoio") = s.resolve pwd' (ascii "domoio") := by
  have hrelative : ¬ascii "." <+: ascii "domoio" := by decide
  have habsolute : ¬ascii "/" <+: ascii "domoio" := by decide
  simp only [Scripts.resolve, if_neg hrelative, if_neg habsolute]

variable {disk : Disk F γ}

/-- Where no file is required twice no listener is registered: `application.js` has required `domoio`
    itself. -/
theorem not_registers (hone : disk.NoneTwice) (callback : γ) : ¬disk.Registers callback := by
  rintro ⟨n, i, hn, hi⟩
  obtain ⟨m, hm⟩ := Option.isSome_iff_exists.mp
    (disk.core (.require (ascii "domoio")) (by simp [Scripts.bootstrap]))
  have hnext : disk.graph.next n i = some (some m) := by
    rw [next_eq hi, Statement.name, resolve_domoio _ _ disk.coreRoot]
    exact congrArg (Option.map some) hm
  have hbootstrap : disk.graph.next none 2 = some (some m) := by
    rw [next_eq (t := .require (ascii "domoio")) rfl]
    exact congrArg (Option.map some) hm
  obtain ⟨rfl, rfl⟩ := hone _ _ _ _ _ _ hn .root hnext hbootstrap rfl
  cases hi

/-- An edge leads to a module. -/
theorem exists_module {n n' : Option (Module F)} (h : s.graph.next n i = some n') :
    ∃ m, n' = some m := by
  obtain ⟨t, -, ht⟩ := Option.bind_eq_some_iff.mp h
  obtain ⟨m, -, rfl⟩ := Option.map_eq_some_iff.mp ht
  exact ⟨m, rfl⟩

/-- Two statements for one file make two loads, with an object each. -/
theorem noneTwice_of_loadsOnce (h : disk.LoadsOnce) : disk.NoneTwice := by
  obtain ⟨fuel, ⟨domoio, e⟩, hboot⟩ := h.terminates
  obtain ⟨visited, hlists, hvisits⟩ := boot_visits hboot
  refine once_of_injective ?_
  intro a i n b j n' ha hb hlabel
  obtain ⟨_, -, hc⟩ := exists_of_nodeAt_cons ha
  obtain ⟨_, -, hc'⟩ := exists_of_nodeAt_cons hb
  obtain ⟨m, rfl⟩ := exists_module hc
  obtain ⟨m', rfl⟩ := exists_module hc'
  obtain ⟨k, hk, hload⟩ := exists_load hlists hvisits ha
  obtain ⟨k', hk', hload'⟩ := exists_load hlists hvisits hb
  have hfile : m.file = m'.file := Option.some.inj hlabel
  have hkk : k = k' := h.shared fuel domoio e hboot _ (List.mem_of_getElem? hload) _
    (List.mem_of_getElem? hload') hfile
  rw [hkk, hk'] at hk
  exact (Option.some.inj hk).symm

/-- A file is at one address, and so it is loaded once. -/
theorem shared_of_noneTwice (hone : disk.NoneTwice) {domoio : Required}
    (hboot : disk.boot fuel = some (domoio, e)) {l l' : F × Nat} (hl : l ∈ e.loads)
    (hl' : l' ∈ e.loads) (hfile : l.1 = l'.1) : l.2 = l'.2 := by
  obtain ⟨visited, hlists, hvisits⟩ := boot_visits hboot
  obtain ⟨k, hk⟩ := List.getElem?_of_mem hl
  obtain ⟨k', hk'⟩ := List.getElem?_of_mem hl'
  obtain ⟨hobject, b, hb, hfb⟩ := (getElem?_loads hvisits).mp hk
  obtain ⟨hobject', b', hb', hfb'⟩ := (getElem?_loads hvisits).mp hk'
  obtain ⟨n, hn, hlabel⟩ := Option.bind_eq_some_iff.mp hfb
  obtain ⟨n', hn', hlabel'⟩ := Option.bind_eq_some_iff.mp hfb'
  have hsame : b = b' :=
    hone.injective rooted hn hn' (hlabel.trans ((congrArg some hfile).trans hlabel'.symm))
  rw [← hsame] at hb'
  have hnodup := (List.nodup_cons.mp hlists.nodup).2
  have hlt : k < visited.length := (List.getElem?_eq_some_iff.mp hb).1
  have hkk : k = k' := (List.getElem?_inj hlt hnodup).mp (hb.trans hb'.symm)
  rw [hobject, hobject', hkk]

/-- **Loading is as it should be exactly where no file is required twice.** -/
theorem loadsOnce_exact [Fintype F] : disk.LoadsOnce ↔ disk.NoneTwice := by
  constructor
  · exact noneTwice_of_loadsOnce
  · intro hone
    refine ⟨?_, ?_, ?_⟩
    · refine boot_terminates_iff.mpr ⟨Fintype.card (Option F), ?_⟩
      intro a ha
      obtain ⟨n, hn⟩ := Option.isSome_iff_exists.mp ha
      exact hone.length_lt rooted hn
    · intro fuel domoio e hboot l hl l' hl' hfile
      exact shared_of_noneTwice hone hboot hl hl' hfile
    · intro fuel domoio e hboot l hl
      obtain ⟨visited, -, hvisits⟩ := boot_visits hboot
      rcases hvisits.listeners l hl with hl | ⟨-, -, hreg⟩
      · cases hl
      · exact absurd hreg (not_registers hone l.2)

/-! ## 8. A rule -/

/-- The core modules, and an application that is a rule. -/
inductive RuleFile where
  | compiler | console | devices | domoio | application

def ruleScripts : Scripts RuleFile String where
  coreRoot := ascii "/system"
  userRoot := ascii "/user"
  file path :=
    if path = ascii "/system/./vendor/coffee-script/lib/coffee-script/coffee-script.js" then
      some .compiler
    else if path = ascii "/system/core/console.js" then some .console
    else if path = ascii "/system/core/devices.coffee" then some .devices
    else if path = ascii "/system/core/domoio.coffee" then some .domoio
    else if path = ascii "/user/application.coffee" then some .application
    else none
  script
    | .domoio => [.require (ascii "devices")]
    | .application => [.onAll "rule"]
    | _ => []

/-- The compiler is one file, and requires none. -/
theorem ruleScripts_compiler (a : List Nat) (n : Option (Module RuleFile))
    (h : ruleScripts.graph.nodeAt (a ++ [0]) = some n) : ∃ pwd, n = some ⟨.compiler, pwd, false⟩ := by
  induction a generalizing n with
  | nil => exact ⟨_, (Option.some.inj h).symm⟩
  | cons i up ih =>
      obtain ⟨p, hp, hnext⟩ := exists_of_nodeAt_cons h
      obtain ⟨pwd, rfl⟩ := ih p hp
      cases hnext

def ruleDisk : Disk RuleFile String where
  toScripts := ruleScripts
  core := by decide
  compiler a m h := by
    obtain ⟨pwd, hm⟩ := ruleScripts_compiler a _ h
    rw [Option.some.inj hm]

/-- The rule is registered on the second `Domoio`, and the first one emits. -/
theorem boot_rule : ruleDisk.boot 3 = some (.exports 2, {
    loads := [(.compiler, 0), (.console, 1), (.domoio, 2), (.devices, 3), (.application, 4), (.domoio, 5),
      (.devices, 6)]
    listeners := [(5, "rule")] }) := by
  rfl

theorem not_loadsOnce_rule : ¬ruleDisk.LoadsOnce := by
  intro h
  have hheard := h.heard 3 _ _ boot_rule (5, "rule") List.mem_cons_self
  cases hheard

end Domoio.js
