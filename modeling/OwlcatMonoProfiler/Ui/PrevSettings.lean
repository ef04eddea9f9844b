import OwlcatMonoProfiler.Ui.LiveLists
import OwlcatMonoProfiler.Library.Recent

/-!
# The settings of the two dialogs

`run_dialog` and `connect_dialog` keep the settings they were accepted with in `QSettings`, to offer
them the next time.  The first reads the array it writes; the second does not.

* `Settings`: the arrays, by their names;
* `trimPrevSettings`: `trim_prev_settings` of both dialogs;
* `Dialogs`, `step`: the dialogs are opened, and accepted or rejected, one after the other;
* `Inv.step`: what is stored and offered, for the settings that were accepted so far;
* `offered_of_run`: applications are remembered, connections are not.
-/

namespace Owlcat

open Grouping Recent

/-! ### Settings -/

/-- `prev_run_settings` -/
structure PrevRunSettings where
  path : String
  args : String
  port : String
  mode : String
  time : Int64
  deriving DecidableEq

/-- `prev_connect_settings` -/
structure PrevConnectSettings where
  ip : String
  port : String
  time : Int64
  deriving DecidableEq

/-- The arrays `run/applications`, `connect/ips` and `run/connect` of `QSettings`. -/
structure Settings where
  runApplications : List PrevRunSettings := []
  connectIps : List PrevConnectSettings := []
  runConnect : List PrevConnectSettings := []
  deriving DecidableEq

/-- `MAX_PREV_RUN_SETTINGS` and `MAX_PREV_CONNECT_SETTINGS` -/
def maxPrevSettings : ℕ := 10

/-- `trim_prev_settings`, with the outcome of `std::sort`. -/
def trimPrevSettings {ρ : Type} [DecidableEq ρ] (time : ρ → Int64) (rows outcome : List ρ) :
    Option (List ρ) :=
  (LiveLists.sort (some fun s1 s2 => time s2 < time s1) rows outcome).map
    (List.take maxPrevSettings)

/-! ### The dialog for applications -/

namespace RunDialog

/-- The constructor: the rows that are offered. -/
def init (settings : Settings) (outcome : List PrevRunSettings) : Option (List PrevRunSettings) :=
  trimPrevSettings PrevRunSettings.time settings.runApplications outcome

/-- The changes of `accept`, for settings that have passed its checks, with the current time. -/
def accept (rows : List PrevRunSettings) (chosen : PrevRunSettings)
    (outcome : List PrevRunSettings) : Option (List PrevRunSettings) :=
  let put : Option PrevRunSettings → PrevRunSettings
    | some s => { s with
        time := chosen.time, args := chosen.args, port := chosen.port, mode := chosen.mode }
    | none => chosen
  trimPrevSettings PrevRunSettings.time (upsert PrevRunSettings.path chosen.path put rows) outcome

/-- `onPathSelected`: the arguments, the port, and whether the mode is that of Il2Cpp. -/
def onPathSelected (rows : List PrevRunSettings) (path : String) :
    Option (String × String × Bool) :=
  if path = "" then none
  else (rows.find? fun s => s.path = path).map fun s => (s.args, s.port, s.mode == "il2cpp")

end RunDialog

/-! ### The dialog for connections -/

namespace ConnectDialog

/-- The constructor, which reads `connect/ips`. -/
def init (settings : Settings) (outcome : List PrevConnectSettings) :
    Option (List PrevConnectSettings) :=
  trimPrevSettings PrevConnectSettings.time settings.connectIps outcome

/-- The addresses that are offered; `contains_default` is found before the rows are cut off. -/
def offered (settings : Settings) (rows : List PrevConnectSettings) : List String :=
  rows.map PrevConnectSettings.ip ++
    if settings.connectIps.any fun s => s.ip = "127.0.0.1" then [] else ["127.0.0.1"]

/-- The changes of `accept`; the port of an address that is there stays. -/
def accept (rows : List PrevConnectSettings) (chosen : PrevConnectSettings)
    (outcome : List PrevConnectSettings) : Option (List PrevConnectSettings) :=
  let put : Option PrevConnectSettings → PrevConnectSettings
    | some s => { s with time := chosen.time }
    | none => chosen
  trimPrevSettings PrevConnectSettings.time (upsert PrevConnectSettings.ip chosen.ip put rows)
    outcome

end ConnectDialog

/-! ### Runs -/

/-- The settings, and the rows of the dialog that is open. -/
structure Dialogs where
  settings : Settings := {}
  run : Option (List PrevRunSettings) := none
  connect : Option (List PrevConnectSettings) := none
  deriving DecidableEq

namespace Dialogs

inductive Action
  | openRun (outcome : List PrevRunSettings)
  | acceptRun (chosen : PrevRunSettings) (outcome : List PrevRunSettings)
  | openConnect (outcome : List PrevConnectSettings)
  | acceptConnect (chosen : PrevConnectSettings) (outcome : List PrevConnectSettings)
  | reject

/-- The dialogs are modal.  What `accept` keeps is written to the settings. -/
def step (s : Dialogs) : Action → Option Dialogs
  | .openRun outcome =>
    if s.run = none ∧ s.connect = none then
      (RunDialog.init s.settings outcome).map fun rows => { s with run := some rows }
    else none
  | .acceptRun chosen outcome => do
    let rows ← RunDialog.accept (← s.run) chosen outcome
    some { s with settings.runApplications := rows, run := none }
  | .openConnect outcome =>
    if s.run = none ∧ s.connect = none then
      (ConnectDialog.init s.settings outcome).map fun rows => { s with connect := some rows }
    else none
  | .acceptConnect chosen outcome => do
    let rows ← ConnectDialog.accept (← s.connect) chosen outcome
    some { s with settings.runConnect := rows, connect := none }
  | .reject => some { s with run := none, connect := none }

/-- The settings `run_dialog` is accepted with. -/
def Action.runs : Action → List PrevRunSettings
  | .acceptRun chosen _ => [chosen]
  | _ => []

/-- The settings `connect_dialog` is accepted with. -/
def Action.connects : Action → List PrevConnectSettings
  | .acceptConnect chosen _ => [chosen]
  | _ => []

end Dialogs

/-! ### Trimming -/

theorem trimPrevSettings_cases {ρ : Type} [DecidableEq ρ] {time : ρ → Int64}
    {rows outcome rows' : List ρ} (h : trimPrevSettings time rows outcome = some rows') :
    outcome.Perm rows ∧ (outcome.Pairwise fun r q => time q ≤ time r) ∧
      rows' = outcome.take maxPrevSettings := by
  obtain ⟨sorted, hsort, rfl⟩ := Option.map_eq_some_iff.1 h
  simp only [LiveLists.sort] at hsort
  split_ifs at hsort with hsorted
  cases hsort
  exact ⟨hsorted.1, hsorted.2.imp fun hlt => Std.not_lt.1 (of_decide_eq_false hlt), rfl⟩

namespace Dialogs

/-! ### What is remembered -/

/-- What a list of applications contains after some settings were accepted.  That nothing is missing
relies on the clock. -/
structure Remembers (uses rows : List PrevRunSettings) : Prop where
  latest : Latest PrevRunSettings.path uses rows
  length_le : rows.length ≤ maxPrevSettings
  sorted : rows.Pairwise fun r q => q.time ≤ r.time
  complete : (uses.Pairwise fun r q => r.time ≤ q.time) →
    Exhaustive PrevRunSettings.path PrevRunSettings.time maxPrevSettings uses rows

variable {uses rows rows' outcome : List PrevRunSettings} {connects : List PrevConnectSettings}
  {s t : Dialogs}

theorem remembers_nil : Remembers [] [] :=
  ⟨⟨List.nodup_nil, by simp⟩, Nat.zero_le _, List.Pairwise.nil, fun _ _ _ h => by cases h⟩

theorem remembers_trim (h : Latest PrevRunSettings.path uses rows)
    (hcomplete : (uses.Pairwise fun r q => r.time ≤ q.time) →
      Exhaustive PrevRunSettings.path PrevRunSettings.time maxPrevSettings uses rows)
    (htrim : trimPrevSettings PrevRunSettings.time rows outcome = some rows') :
    Remembers uses rows' := by
  obtain ⟨hperm, hsorted, rfl⟩ := trimPrevSettings_cases htrim
  exact ⟨h.trim hperm _, List.length_take_le _ _, hsorted.sublist (List.take_sublist _ _),
    fun huses => (hcomplete huses).trim hperm hsorted⟩

/-- The dialog offers what is stored. -/
theorem Remembers.init {settings : Settings} (h : Remembers uses settings.runApplications)
    (hinit : RunDialog.init settings outcome = some rows) : Remembers uses rows :=
  remembers_trim h.latest h.complete hinit

/-- The accepted settings are added. -/
theorem Remembers.accept {chosen : PrevRunSettings} (h : Remembers uses rows)
    (haccept : RunDialog.accept rows chosen outcome = some rows') :
    Remembers (uses ++ [chosen]) rows' := by
  rw [RunDialog.accept, upsert_congr (fun _ => chosen) rows (fun g hg => ?_) rfl] at haccept
  · refine remembers_trim (h.latest.use chosen) (fun huses => ?_) haccept
    obtain ⟨huses, -, hchosen⟩ := List.pairwise_append.1 huses
    exact (h.complete huses).use h.latest.nodup fun q hq => hchosen q hq chosen (by simp)
  · obtain ⟨path, args, port, mode, time⟩ := g
    cases hg
    rfl

/-- Selecting a path fills in what it was last accepted with. -/
theorem Remembers.onPathSelected (h : Remembers uses rows) {path : String} {r : PrevRunSettings}
    (hne : path ≠ "") (hmem : path ∈ rows.map PrevRunSettings.path)
    (hr : lastUse PrevRunSettings.path uses path = some r) :
    RunDialog.onPathSelected rows path = some (r.args, r.port, r.mode == "il2cpp") := by
  rw [RunDialog.onPathSelected, if_neg hne]
  cases hfind : rows.find? fun s => s.path = path with
  | none =>
    obtain ⟨q, hq, hpath⟩ := List.mem_map.1 hmem
    simpa [hpath] using List.find?_eq_none.1 hfind q hq
  | some q =>
    have hpath : q.path = path := by simpa using List.find?_some hfind
    have hlatest := h.latest.latest q (List.mem_of_find?_eq_some hfind)
    rw [hpath, hr, Option.some.injEq] at hlatest
    rw [hlatest]
    rfl

/-! ### Runs of the dialogs -/

/-- **What is stored and offered**, after some settings were accepted in each dialog. -/
structure Inv (uses : List PrevRunSettings) (connects : List PrevConnectSettings) (s : Dialogs) :
    Prop where
  stored : Remembers uses s.settings.runApplications
  rows : ∀ rows ∈ s.run, Remembers uses rows
  connectIps : s.settings.connectIps = []
  connectRows : ∀ rows ∈ s.connect, rows = []
  runConnect : s.settings.runConnect = connects.getLast?.toList

theorem Inv.initial : Inv [] [] {} :=
  ⟨remembers_nil, by simp, rfl, by simp, rfl⟩

theorem Inv.step {a : Action} (h : Inv uses connects s) (hstep : step s a = some t) :
    Inv (uses ++ a.runs) (connects ++ a.connects) t := by
  cases a with
  | openRun outcome =>
    simp only [Dialogs.step] at hstep
    split_ifs at hstep with hclosed
    obtain ⟨rows, hinit, rfl⟩ := Option.map_eq_some_iff.1 hstep
    simp only [Action.runs, Action.connects, List.append_nil]
    refine ⟨h.stored, fun rows' hrows => ?_, h.connectIps, h.connectRows, h.runConnect⟩
    cases hrows
    exact h.stored.init hinit
  | acceptRun chosen outcome =>
    simp only [Dialogs.step, Option.bind_eq_bind, Option.bind_eq_some_iff] at hstep
    obtain ⟨rows, hrun, rows', haccept, hstep⟩ := hstep
    cases hstep
    simp only [Action.runs, Action.connects, List.append_nil]
    exact ⟨(h.rows rows hrun).accept haccept, by simp, h.connectIps, h.connectRows, h.runConnect⟩
  | openConnect outcome =>
    simp only [Dialogs.step] at hstep
    split_ifs at hstep with hclosed
    obtain ⟨rows, hinit, rfl⟩ := Option.map_eq_some_iff.1 hstep
    simp only [Action.runs, Action.connects, List.append_nil]
    refine ⟨h.stored, h.rows, h.connectIps, fun rows' hrows => ?_, h.runConnect⟩
    cases hrows
    -- the array that is read has never been written
    rw [ConnectDialog.init, h.connectIps] at hinit
    obtain ⟨hperm, -, rfl⟩ := trimPrevSettings_cases hinit
    rw [hperm.eq_nil, List.take_nil]
  | acceptConnect chosen outcome =>
    simp only [Dialogs.step, Option.bind_eq_bind, Option.bind_eq_some_iff] at hstep
    obtain ⟨rows, hconnect, rows', haccept, hstep⟩ := hstep
    cases hstep
    simp only [Action.runs, Action.connects, List.append_nil]
    refine ⟨h.stored, h.rows, h.connectIps, by simp, ?_⟩
    rw [h.connectRows rows hconnect, ConnectDialog.accept] at haccept
    obtain ⟨hperm, -, rfl⟩ := trimPrevSettings_cases haccept
    rw [List.perm_singleton.1 hperm, List.getLast?_append]
    rfl
  | reject =>
    cases hstep
    simp only [Action.runs, Action.connects, List.append_nil]
    exact ⟨h.stored, by simp, h.connectIps, by simp, h.runConnect⟩

theorem Inv.run {l : List Action} (h : Inv uses connects s)
    (hrun : Run.run Dialogs.step s l = some t) :
    Inv (uses ++ l.flatMap Action.runs) (connects ++ l.flatMap Action.connects) t := by
  induction l generalizing s uses connects with
  | nil =>
    cases hrun
    simpa using h
  | cons a l ih =>
    obtain ⟨u, hu, hrun⟩ := Option.bind_eq_some_iff.1 hrun
    rw [List.flatMap_cons, List.flatMap_cons, ← List.append_assoc, ← List.append_assoc]
    exact ih (h.step hu) hrun

/-- **Applications are remembered, connections are not.**  The applications offered are the ones
accepted last, at most ten, with what they were accepted with; the dialog for connections never
offers one that was accepted, since the array it writes is not the one it reads. -/
theorem offered_of_run {l : List Action} (hrun : Run.run step {} l = some s) :
    Remembers (l.flatMap Action.runs) s.settings.runApplications ∧
      (∀ rows ∈ s.run, Remembers (l.flatMap Action.runs) rows ∧
        ∀ path r, path ≠ "" → path ∈ rows.map PrevRunSettings.path →
          lastUse PrevRunSettings.path (l.flatMap Action.runs) path = some r →
          RunDialog.onPathSelected rows path = some (r.args, r.port, r.mode == "il2cpp")) ∧
      (∀ rows ∈ s.connect, ConnectDialog.offered s.settings rows = ["127.0.0.1"]) ∧
      s.settings.runConnect = (l.flatMap Action.connects).getLast?.toList := by
  have h := Inv.initial.run hrun
  rw [List.nil_append, List.nil_append] at h
  refine ⟨h.stored, fun rows hrows => ⟨h.rows rows hrows, fun path r hne hmem hr => ?_⟩,
    fun rows hrows => ?_, h.runConnect⟩
  · exact (h.rows rows hrows).onPathSelected hne hmem hr
  · rw [ConnectDialog.offered, h.connectRows rows hrows, h.connectIps]
    rfl

/-- An application is run twice, and then a connection is made twice. -/
def runsAndConnects : List Action :=
  [.openRun [], .acceptRun ⟨"a.exe", "", "8888", "mono", 1⟩ [⟨"a.exe", "", "8888", "mono", 1⟩],
    .openRun [⟨"a.exe", "", "8888", "mono", 1⟩],
    .acceptRun ⟨"a.exe", "-x", "8888", "il2cpp", 2⟩ [⟨"a.exe", "-x", "8888", "il2cpp", 2⟩],
    .openConnect [], .acceptConnect ⟨"10.0.0.1", "8888", 3⟩ [⟨"10.0.0.1", "8888", 3⟩],
    .openConnect []]

theorem offered_of_run_twice : ∃ s, Run.run step {} runsAndConnects = some s ∧
    Remembers (runsAndConnects.flatMap Action.runs) s.settings.runApplications ∧
    s.connect = some [] ∧ ConnectDialog.offered s.settings [] = ["127.0.0.1"] := by
  have hconnect : (Run.run step {} runsAndConnects).map Dialogs.connect = some (some []) := by
    decide +kernel
  obtain ⟨s, hrun, hs⟩ := Option.map_eq_some_iff.1 hconnect
  obtain ⟨hstored, -, hoffered, -⟩ := offered_of_run hrun
  exact ⟨s, hrun, hstored, hs, hoffered [] hs⟩

end Dialogs

end Owlcat
