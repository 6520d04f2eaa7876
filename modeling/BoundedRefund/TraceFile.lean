import BoundedRefund.Session
import BoundedRefund.Textual.Lines
import Mathlib.Data.List.ReduceOption
import Mathlib.Data.List.Sort

/-!
# Trace files

Every event is also appended to the file of its trace, as one line of JSON, and `bra trace`
reads the `*.jsonl` files of a directory back and shows the events of one run.  Any number of
traces may be written at the same time, several of them to one file.  Texts are sequences of
Unicode scalar values, which is what a file in UTF-8 can hold.

What is shown is what was emitted: all of it, in its order, and nothing of other runs, as long
as no text of an event has a character at which only the reader breaks a line.  Where some event
has one, nothing of any run is shown that way (`trace_read_back`).  The texts of an event are the
ids of resources and the like, and the planner may have chosen them.
-/

namespace BoundedRefund

open Textual

/-! ## Timestamps -/

/-- A number in at least so many digits. -/
def padded (width n : Nat) : String :=
  String.ofList ((Nat.toDigits 10 n).leftpad width '0')

/-- Year, month and day, of a number of days since the epoch, in the Gregorian calendar.  The
year begins in March, so that the day that is sometimes there is the last one. -/
def ymd (days : Int) : Int × Nat × Nat :=
  let shifted := days + 719468
  let era := shifted / 146097
  let day := (shifted % 146097).toNat
  let year := (day - day / 1460 + day / 36524 - day / 146096) / 365
  let dayOfYear := day - (365 * year + year / 4 - year / 100)
  let month := (5 * dayOfYear + 2) / 153
  let civil := if month < 10 then month + 3 else month - 9
  (year + era * 400 + (if civil ≤ 2 then 1 else 0), civil,
    dayOfYear - (153 * month + 2) / 5 + 1)

/-- A time of day, of a number of microseconds. -/
def hms (micros : Nat) : String :=
  let whole := micros / 1000000
  padded 2 (whole / 3600) ++ ":" ++ padded 2 (whole / 60 % 60) ++ ":" ++ padded 2 (whole % 60) ++
    if micros % 1000000 = 0 then "" else "." ++ padded 6 (micros % 1000000)

/-- `datetime.isoformat` without an offset, in the years it has. -/
def isoformat (wall : Int) : String :=
  let date := ymd (wall / 86400000000)
  padded 4 date.1.toNat ++ "-" ++ padded 2 date.2.1 ++ "-" ++ padded 2 date.2.2 ++ "T" ++
    hms (wall % 86400000000).toNat

/-- The offset of a zone: hours and minutes, and more where there is more. -/
def formatOffset (offset : Int) : String :=
  let micros := offset.natAbs
  let minutes := micros / 60000000
  (if offset < 0 then "-" else "+") ++ padded 2 (minutes / 60) ++ ":" ++ padded 2 (minutes % 60) ++
    if micros % 60000000 = 0 then ""
    else ":" ++ padded 2 (micros / 1000000 % 60) ++
      if micros % 1000000 = 0 then "" else "." ++ padded 6 (micros % 1000000)

/-- The text itself. -/
def IsoText.text : IsoText → String
  | .naive wall => isoformat wall
  | .aware wall utcOffset => isoformat wall ++ formatOffset utcOffset
  | .malformed text => text

example : (toIso 1775044800000000).text = "2026-04-01T12:00:00+00:00" := by decide +kernel

/-! ## Events as JSON -/

instance : StrEnum EventType where
  className := "EVENT_ORDER"
  members :=
    [.userRequestReceived, .proposalCreated, .proposalValidated, .proposalRejected,
     .policyAllowed, .policyDenied, .permitIssued, .mutationAttempted, .mutationCommitted,
     .mutationReplayed, .mutationRejected, .stateVerified, .runFinished]
  value
    | .userRequestReceived => "user_request_received"
    | .proposalCreated => "proposal_created"
    | .proposalValidated => "proposal_validated"
    | .proposalRejected => "proposal_rejected"
    | .policyAllowed => "policy_allowed"
    | .policyDenied => "policy_denied"
    | .permitIssued => "permit_issued"
    | .mutationAttempted => "mutation_attempted"
    | .mutationCommitted => "mutation_committed"
    | .mutationReplayed => "mutation_replayed"
    | .mutationRejected => "mutation_rejected"
    | .stateVerified => "state_verified"
    | .runFinished => "run_finished"
  find_value a := by cases a <;> decide

/-- `_plain`, as JSON. -/
def PlainValue.json : PlainValue → Json
  | .none => .null
  | .int n => .int n
  | .str s => .str s

namespace Event

/-- The dictionary `emit` builds. -/
def dict (e : Event) : List (String × Json) :=
  Dict.update
    [("run_id", .str e.runId), ("scenario_id", .str e.scenarioId),
     ("event_type", .str (str e.eventType)), ("resource_id", .str e.resourceId),
     ("resource_version", .int e.resourceVersion),
     ("decision_owner", .str (str e.decisionOwner)),
     ("reason_code", .str ((e.reasonCode.map StrEnum.value).getD "")),
     ("timestamp", .str e.timestamp.text)]
    (e.extra.map fun entry => (entry.1, entry.2.json))

/-- An event as it is written to a line. -/
def json (e : Event) : Json := .obj e.dict

/-- No key and no text of the event has a separator. -/
def Unbroken (e : Event) : Prop :=
  ∀ entry ∈ e.dict, (∀ c ∈ entry.1.toList, isSeparator c = false) ∧
    ∀ text, entry.2 = .str text → ∀ c ∈ text.toList, isSeparator c = false

/-- The values of an event hold no values of their own. -/
theorem flat {e : Event} {entry : String × Json} (h : entry ∈ e.dict) :
    entry.2 = .null ∨ (∃ n, entry.2 = .int n) ∨ ∃ text, entry.2 = .str text := by
  rcases Dict.mem_update h with h | h
  · simp only [List.mem_cons, List.not_mem_nil, or_false] at h
    rcases h with rfl | rfl | rfl | rfl | rfl | rfl | rfl | rfl <;> simp
  · obtain ⟨⟨key, value⟩, -, rfl⟩ := List.mem_map.mp h
    cases value <;> simp [PlainValue.json]

/-- An event is a well-formed object. -/
theorem wellFormed (e : Event) : e.json.WellFormed := by
  refine .obj (Dict.nodup_update (by simp [Dict.keys])) fun entry h => ?_
  obtain hnull | ⟨n, hint⟩ | ⟨text, hstr⟩ := flat h
  · exact hnull ▸ .null
  · exact hint ▸ .int n
  · exact hstr ▸ .str text

/-- It breaks no line where its texts break none. -/
theorem unbroken_json {e : Event} : e.json.Unbroken ↔ e.Unbroken := by
  rw [json, Json.unbroken_obj]
  refine forall₂_congr fun entry h => ?_
  rw [Json.unbroken_str]
  refine and_congr_right fun _ => ?_
  obtain hnull | ⟨n, hint⟩ | ⟨text, hstr⟩ := flat h
  · simp [hnull]
  · simp [hint]
  · simp [hstr]

instance (e : Event) : Decidable e.Unbroken :=
  decidable_of_iff e.json.Unbroken unbroken_json

end Event

/-! ## Writing -/

/-- What `AuditTrace` is made with, its clock apart.  The path is the name of a file in the
directory `bra trace` reads. -/
structure Writer where
  runId : String
  scenarioId : String
  path : Option String := none

/-- One call of `emit`. -/
structure Emission (ι : Type) where
  writer : ι
  now : Instant
  fields : EventFields

/-- The event of an emission. -/
def Emission.event {ι : Type} (writers : ι → Writer) (e : Emission ι) : Event :=
  { e.fields with
    runId := (writers e.writer).runId
    scenarioId := (writers e.writer).scenarioId
    timestamp := toIso e.now }

/-- The traces, and the directory they are written to. -/
structure Archive (ι : Type) where
  traces : ι → AuditTrace
  files : List (String × List Char)

namespace Archive

variable {ι : Type} [DecidableEq ι] (writers : ι → Writer)

/-- Traces to which nothing has been emitted. -/
def fresh : Archive ι where
  traces i := { runId := (writers i).runId, scenarioId := (writers i).scenarioId }
  files := []

/-- `path.open("a")` and one line. -/
def appendLine (files : List (String × List Char)) (name : String) (value : Json) :
    List (String × List Char) :=
  Dict.set files name ((files.lookup name).getD [] ++ line value)

/-- `emit`: the event goes to the list, and to the file if there is one. -/
def emit (a : Archive ι) (e : Emission ι) : Archive ι where
  traces := Function.update a.traces e.writer ((a.traces e.writer).emit e.now e.fields)
  files :=
    match (writers e.writer).path with
    | none => a.files
    | some name => appendLine a.files name (e.event writers).json

/-- The archive behind a sequence of emissions. -/
def run (emissions : List (Emission ι)) : Archive ι :=
  emissions.foldl (emit writers) (fresh writers)

/-- The events that went to a file, in their order. -/
def written (emissions : List (Emission ι)) (name : String) : List Event :=
  (emissions.filter fun e => (writers e.writer).path = some name).map (Emission.event writers)

end Archive

/-! ## Reading -/

/-- What ends `bra trace`: a message, a line that is no JSON, a line that is no object. -/
inductive TraceError
  | systemExit (message : String)
  | jsonDecode
  | attribute
deriving DecidableEq, Repr

/-- `event.get("run_id") == run_id`, where a run is asked for. -/
def belongs (runId : String) (event : Json) : Except TraceError Bool :=
  if runId = "" then .ok true
  else
    match event with
    | .obj entries =>
        match entries.lookup "run_id" with
        | some (.str id) => .ok (decide (id = runId))
        | _ => .ok false
    | _ => .error .attribute

/-- One line: its event, if it belongs to the run. -/
def readLine (runId : String) (line : List Char) : Except TraceError (Option Json) :=
  match Json.loads line with
  | none => .error .jsonDecode
  | some event => do
      let found ← belongs runId event
      return if found then some event else none

/-- One file. -/
def readFile (runId : String) (text : List Char) : Except TraceError (List Json) := do
  let found ← (shownLines text).mapM (readLine runId)
  return found.reduceOption

/-- What `glob("*.jsonl")` finds, by its name. -/
def globbed (name : String) : Bool := ".jsonl".toList.isSuffixOf name.toList

/-- Whether the trace is written to a file `bra trace` looks at. -/
def Writer.shown (w : Writer) : Bool := w.path.any globbed

/-- A writer is shown when its file is one the command reads. -/
theorem Writer.shown_iff {w : Writer} :
    w.shown = true ↔ ∃ name, w.path = some name ∧ globbed name = true := by
  cases hpath : w.path <;> simp [shown, hpath]

theorem Writer.shown_of_path {w : Writer} {name : String} (hpath : w.path = some name)
    (hname : globbed name = true) : w.shown = true :=
  shown_iff.mpr ⟨name, hpath, hname⟩

/-- The files to read: that of a scenario, or all trace files in the order of their names. -/
def tracePaths (files : List (String × List Char)) (scenario runId : String) :
    Except TraceError (List (String × List Char)) :=
  if scenario ≠ "" then
    match files.lookup (scenario ++ ".jsonl") with
    | none => .error (.systemExit ("no trace for " ++ pyRepr scenario ++
        "; run `bra run --scenario " ++ scenario ++ "` or `bra eval` first"))
    | some text => .ok [(scenario ++ ".jsonl", text)]
  else if runId ≠ "" then
    .ok ((files.filter fun file => globbed file.1).insertionSort fun a b => a.1 ≤ b.1)
  else .error (.systemExit "give a run id or --scenario")

/-- `cmd_trace`: the events it shows. -/
def cmdTrace (files : List (String × List Char)) (scenario runId : String) :
    Except TraceError (List Json) := do
  let paths ← tracePaths files scenario runId
  let events ← paths.mapM fun file => readFile runId file.2
  if events.flatten.isEmpty then
    throw (.systemExit ("no audit events found for run id " ++ pyRepr runId))
  return events.flatten

/-! ## What the files hold -/

namespace Archive

variable {ι : Type} [DecidableEq ι] {writers : ι → Writer} {emissions : List (Emission ι)}

/-- One emission more. -/
theorem run_append (e : Emission ι) :
    run writers (emissions ++ [e]) = emit writers (run writers emissions) e := by
  rw [run, List.foldl_append]
  rfl

/-- A trace remembers what was emitted to it, under the ids it was made with. -/
theorem traces_run (i : ι) : (run writers emissions).traces i =
    { runId := (writers i).runId
      scenarioId := (writers i).scenarioId
      events := (emissions.filter fun e => e.writer = i).map (Emission.event writers) } := by
  induction emissions using List.reverseRecOn with
  | nil => rfl
  | append_singleton emissions e ih =>
      rw [run_append, List.filter_append, List.map_append]
      by_cases h : e.writer = i
      · subst h
        simp only [emit, Function.update_self, ih, AuditTrace.emit, decide_true,
          List.filter_cons_of_pos, List.filter_nil, List.map_cons, List.map_nil]
        rfl
      · simp only [emit, Function.update_of_ne (Ne.symm h), ih, h, decide_false,
          Bool.false_eq_true, not_false_eq_true, List.filter_cons_of_neg, List.filter_nil,
          List.map_nil, List.append_nil]

/-- A file is there once something was written to it, and it holds the lines of its events. -/
theorem lookup_run (name : String) : (run writers emissions).files.lookup name =
    if written writers emissions name = [] then none
    else some (write ((written writers emissions name).map Event.json)) := by
  induction emissions using List.reverseRecOn with
  | nil => rfl
  | append_singleton emissions e ih =>
      have hwritten : written writers (emissions ++ [e]) name =
          written writers emissions name ++
            if (writers e.writer).path = some name then [e.event writers] else [] := by
        rw [written, List.filter_append, List.map_append]
        split_ifs with h <;> simp [h, written]
      rw [run_append, hwritten]
      by_cases h : (writers e.writer).path = some name
      · have hfiles : (emit writers (run writers emissions) e).files =
            appendLine (run writers emissions).files name (e.event writers).json := by
          simp only [emit, h]
        have hne : written writers emissions name ++ [e.event writers] ≠ [] := by simp
        rw [hfiles, appendLine, Dict.lookup_set_self, ih, if_pos h, if_neg hne]
        -- the first line makes the file
        by_cases hnone : written writers emissions name = []
        · simp [hnone, write]
        · simp [hnone, write]
      · have hfiles : (emit writers (run writers emissions) e).files.lookup name =
            (run writers emissions).files.lookup name := by
          unfold emit
          cases hpath : (writers e.writer).path with
          | none => rfl
          | some other =>
              have hne : name ≠ other := by
                rintro rfl
                exact h hpath
              exact Dict.lookup_set_of_ne hne
        rw [hfiles, ih, if_neg h, List.append_nil]

/-- There is one file to a name. -/
theorem nodup_run : (Dict.keys (run writers emissions).files).Nodup := by
  induction emissions using List.reverseRecOn with
  | nil => exact List.nodup_nil
  | append_singleton emissions e ih =>
      rw [run_append, emit]
      cases (writers e.writer).path with
      | none => exact ih
      | some name => exact Dict.nodup_set ih

end Archive

/-! ## What is read -/

section Read

variable {α β : Type}

/-- What succeeds for each succeeds for all. -/
theorem mapM_ok {f : α → Except TraceError β} {g : α → β} {l : List α}
    (h : ∀ x ∈ l, f x = .ok (g x)) : l.mapM f = .ok (l.map g) := by
  induction l with
  | nil => rfl
  | cons x l ih =>
      rw [List.mapM_cons, h x List.mem_cons_self, ih fun y hy => h y (List.mem_cons_of_mem x hy)]
      rfl

/-- What stands before the first failure does not matter. -/
theorem mapM_error {f : α → Except TraceError β} {before rest : List α} {x : α} {err : TraceError}
    (hbefore : ∀ y ∈ before, ∃ b, f y = .ok b) (hx : f x = .error err) :
    (before ++ x :: rest).mapM f = .error err := by
  induction before with
  | nil =>
      rw [List.nil_append, List.mapM_cons, hx]
      rfl
  | cons y before ih =>
      obtain ⟨b, hb⟩ := hbefore y List.mem_cons_self
      rw [List.cons_append, List.mapM_cons, hb,
        ih fun z hz => hbefore z (List.mem_cons_of_mem y hz)]
      rfl

/-- Where all that fail fail alike, it does not matter which is first. -/
theorem mapM_error_of_mem {f : α → Except TraceError β} {l : List α} {err : TraceError}
    (h : ∀ x ∈ l, (∃ b, f x = .ok b) ∨ f x = .error err) {x : α} (hx : x ∈ l)
    (hfails : f x = .error err) : l.mapM f = .error err := by
  induction l with
  | nil => cases hx
  | cons y l ih =>
      obtain ⟨b, hb⟩ | hy := h y List.mem_cons_self
      · have hrest : x ∈ l := by
          rcases List.mem_cons.mp hx with rfl | hx
          · rw [hb] at hfails
            cases hfails
          · exact hx
        rw [List.mapM_cons, hb, ih (fun z hz => h z (List.mem_cons_of_mem y hz)) hrest]
        rfl
      · have hfirst : ([] ++ y :: l).mapM f = .error err :=
          mapM_error (fun _ hz => by cases hz) hy
        exact hfirst

variable {runId : String} {events : List Event}

/-- Whether an event is asked for. -/
def Event.asked (runId : String) (e : Event) : Bool := runId = "" || e.runId = runId

/-- A line is asked for under the run id of its event. -/
theorem belongs_json {e : Event} (h : "run_id" ∉ Dict.keys e.extra) :
    belongs runId e.json = .ok (e.asked runId) := by
  have hkeys : "run_id" ∉ Dict.keys (e.extra.map fun entry => (entry.1, entry.2.json)) := by
    simpa [Dict.keys, Function.comp_def] using h
  have hlookup : e.dict.lookup "run_id" = some (.str e.runId) :=
    (Dict.lookup_update_of_notMem hkeys).trans rfl
  unfold belongs Event.asked
  split_ifs with hrun
  · simp [hrun]
  · simp [Event.json, hlookup, hrun]

/-- A line that was written is read back. -/
theorem readLine_encode {e : Event} (h : "run_id" ∉ Dict.keys e.extra) :
    readLine runId (Json.encode e.json) =
      .ok (if e.asked runId then some e.json else none) := by
  rw [readLine, Json.loads_encode e.wellFormed]
  simp only [belongs_json h]
  rfl

/-- A file none of whose events breaks its line. -/
theorem readFile_write (hkeys : ∀ e ∈ events, "run_id" ∉ Dict.keys e.extra)
    (h : ∀ e ∈ events, e.Unbroken) : readFile runId (write (events.map Event.json)) =
      .ok ((events.filter (Event.asked runId)).map Event.json) := by
  have hlines : shownLines (write (events.map Event.json)) =
      events.map fun e => Json.encode e.json := by
    rw [shownLines_write, List.map_map]
    · rfl
    · intro v hv
      obtain ⟨e, -, rfl⟩ := List.mem_map.mp hv
      exact ⟨e.wellFormed, e.dict, rfl⟩
    · intro v hv
      obtain ⟨e, he, rfl⟩ := List.mem_map.mp hv
      exact Event.unbroken_json.mpr (h e he)
  have hkept : (events.map fun e => if e.asked runId then some e.json else none).reduceOption =
      (events.filter (Event.asked runId)).map Event.json := by
    clear hlines hkeys h
    induction events with
    | nil => rfl
    | cons e events ih =>
        cases hasked : e.asked runId with
        | true => simp [hasked, List.reduceOption_cons_of_some, ih]
        | false => simp [hasked, List.reduceOption_cons_of_none, ih]
  have hread : (events.map fun e => Json.encode e.json).mapM (readLine runId) =
      .ok (events.map fun e => if e.asked runId then some e.json else none) := by
    rw [List.mapM_map]
    exact mapM_ok fun e he => readLine_encode (hkeys e he)
  rw [readFile, hlines, hread]
  exact congrArg Except.ok hkept

/-- A file with an event that breaks its line. -/
theorem readFile_write_of_broken {e : Event} (he : e ∈ events) (h : ¬e.Unbroken)
    (hkeys : ∀ e ∈ events, "run_id" ∉ Dict.keys e.extra) :
    readFile runId (write (events.map Event.json)) = .error .jsonDecode := by
  have hvs : ∀ v ∈ events.map Event.json, v.WellFormed ∧ ∃ entries, v = .obj entries := by
    intro v hv
    obtain ⟨e, -, rfl⟩ := List.mem_map.mp hv
    exact ⟨e.wellFormed, e.dict, rfl⟩
  obtain ⟨before, p, rest, hlines, hbefore, hp⟩ := shownLines_write_of_broken hvs
    (List.mem_map_of_mem he) (fun hunbroken => h (Event.unbroken_json.mp hunbroken))
  have hgood : ∀ y ∈ before.map Json.encode, ∃ b, readLine runId y = .ok b := by
    intro y hy
    obtain ⟨v, hv, rfl⟩ := List.mem_map.mp hy
    obtain ⟨e, he, rfl⟩ := List.mem_map.mp (hbefore v hv)
    exact ⟨_, readLine_encode (hkeys e he)⟩
  have hbad : readLine runId p = .error .jsonDecode := by rw [readLine, hp]
  rw [readFile, hlines, mapM_error hgood hbad]
  rfl

end Read

/-! ## The whole directory -/

/-- Where one file alone has something to show, that is what all of them show. -/
theorem flatten_of_alone {β : Type} {g : String → List β} {files : List (String × List Char)}
    {name : String} (hnodup : (Dict.keys files).Nodup)
    (hothers : ∀ other ∈ Dict.keys files, other ≠ name → g other = [])
    (hmissing : name ∉ Dict.keys files → g name = []) :
    (files.map fun file => g file.1).flatten = g name := by
  induction files with
  | nil => exact (hmissing List.not_mem_nil).symm
  | cons file files ih =>
      obtain ⟨hnew, hrest⟩ : file.1 ∉ Dict.keys files ∧ (Dict.keys files).Nodup := by
        simpa [Dict.keys] using hnodup
      rw [List.map_cons, List.flatten_cons]
      by_cases h : file.1 = name
      · have hnone : (files.map fun file => g file.1).flatten = [] := by
          refine List.flatten_eq_nil_iff.mpr fun shown hshown => ?_
          obtain ⟨other, hmem, rfl⟩ := List.mem_map.mp hshown
          have hkey : other.1 ∈ Dict.keys files := List.mem_map_of_mem hmem
          refine hothers _ (List.mem_cons_of_mem _ hkey) fun heq => hnew ?_
          rw [h, ← heq]
          exact hkey
        rw [hnone, List.append_nil, h]
      · rw [hothers _ List.mem_cons_self h, List.nil_append]
        refine ih hrest (fun other hmem => hothers other (List.mem_cons_of_mem _ hmem)) fun hno =>
          hmissing fun hmem => ?_
        rcases List.mem_cons.mp hmem with heq | hmem
        · exact h heq.symm
        · exact hno hmem

/-- The events of a file, an emission for each. -/
theorem Archive.of_mem_written {ι : Type} {writers : ι → Writer} {emissions : List (Emission ι)}
    {name : String} {e : Event} (h : e ∈ written writers emissions name) :
    ∃ x ∈ emissions, (writers x.writer).path = some name ∧ x.event writers = e := by
  obtain ⟨x, hx, rfl⟩ := List.mem_map.mp h
  obtain ⟨hmem, hpath⟩ := List.mem_filter.mp hx
  exact ⟨x, hmem, by simpa using hpath, rfl⟩

section ReadBack

variable {ι : Type} [DecidableEq ι] {writers : ι → Writer} {emissions : List (Emission ι)}

/-- Every file holds the events that went to it. -/
theorem Archive.of_mem_files {file : String × List Char}
    (h : file ∈ (Archive.run writers emissions).files) :
    written writers emissions file.1 ≠ [] ∧
      file.2 = write ((written writers emissions file.1).map Event.json) := by
  have hlookup := (Dict.lookup_eq_some_iff nodup_run).mpr h
  rw [lookup_run] at hlookup
  split_ifs at hlookup with hnone
  exact ⟨hnone, (Option.some.inj hlookup).symm⟩

/-- The events of a run that is alone with its id, in its file: what its trace remembers. -/
theorem Archive.asked_written {i : ι} {name : String} (hrun : (writers i).runId ≠ "")
    (halone : ∀ j, (writers j).runId = (writers i).runId → j = i)
    (hpath : (writers i).path = some name) :
    (written writers emissions name).filter (Event.asked (writers i).runId) =
      ((run writers emissions).traces i).events := by
  rw [traces_run, written, List.filter_map, List.filter_filter]
  refine congrArg _ (List.filter_congr fun e _ => ?_)
  by_cases h : e.writer = i
  · subst h
    simp [Event.asked, Emission.event, hpath]
  · have hother : (writers e.writer).runId ≠ (writers i).runId := fun heq => h (halone _ heq)
    simp [Event.asked, Emission.event, h, hrun, hother]

/-- The trace files together show of such a run what its trace remembers. -/
theorem Archive.flatten_asked {i : ι} {name : String} (hrun : (writers i).runId ≠ "")
    (halone : ∀ j, (writers j).runId = (writers i).runId → j = i)
    (hpath : (writers i).path = some name) (hname : globbed name = true)
    {files : List (String × List Char)}
    (hfiles : files.Perm ((run writers emissions).files.filter fun file => globbed file.1)) :
    (files.map fun file => ((written writers emissions file.1).filter
      (Event.asked (writers i).runId)).map Event.json).flatten =
        ((run writers emissions).traces i).events.map Event.json := by
  have hnodup : (Dict.keys files).Nodup :=
    (hfiles.map Prod.fst).nodup_iff.mpr (nodup_run.sublist (List.filter_sublist.map Prod.fst))
  rw [← asked_written hrun halone hpath]
  refine flatten_of_alone (g := fun name => ((written writers emissions name).filter
    (Event.asked (writers i).runId)).map Event.json) hnodup (fun other _ hother => ?_)
      fun hmissing => ?_
  · -- an event of the run is in the file of its writer
    refine List.map_eq_nil_iff.mpr (List.filter_eq_nil_iff.mpr fun e he hasked => hother ?_)
    obtain ⟨x, -, hx, rfl⟩ := of_mem_written he
    have hid : (writers x.writer).runId = (writers i).runId := by
      rw [Event.asked, Bool.or_eq_true, decide_eq_true_eq, decide_eq_true_eq] at hasked
      exact hasked.resolve_left hrun
    rw [halone _ hid, hpath] at hx
    exact (Option.some.inj hx).symm
  · have hnone : written writers emissions name = [] := by
      by_contra hsome
      have hlookup : (run writers emissions).files.lookup name = _ := lookup_run name
      rw [if_neg hsome, Dict.lookup_eq_some_iff nodup_run] at hlookup
      exact hmissing (List.mem_map_of_mem
        (hfiles.symm.subset (List.mem_filter.mpr ⟨hlookup, hname⟩)))
    simp [hnone]

/-- **Traces are read back.**  Any number of traces, emitting in any order, several of them to
one file if they like, and no event with an entry that would take the place of its run id.  Then
`bra trace` with the id of a run that no other has, and that writes to a trace file, shows exactly
the events its trace remembers, in their order, or says that there are none; unless some event of
some trace file has a character at which only the reader breaks a line, and then it fails on that
line, for every run. -/
theorem trace_read_back (hkeys : ∀ e ∈ emissions, "run_id" ∉ Dict.keys e.fields.extra) {i : ι}
    (hrun : (writers i).runId ≠ "") (halone : ∀ j, (writers j).runId = (writers i).runId → j = i)
    (hshown : (writers i).shown = true) :
    ((∀ e ∈ emissions, (writers e.writer).shown = true → (e.event writers).Unbroken) →
      cmdTrace (Archive.run writers emissions).files "" (writers i).runId =
        if ((Archive.run writers emissions).traces i).events = [] then
          .error (.systemExit ("no audit events found for run id " ++ pyRepr (writers i).runId))
        else .ok (((Archive.run writers emissions).traces i).events.map Event.json)) ∧
    ((∃ e ∈ emissions, (writers e.writer).shown = true ∧ ¬(e.event writers).Unbroken) →
      cmdTrace (Archive.run writers emissions).files "" (writers i).runId =
        .error .jsonDecode) := by
  have hwritten : ∀ name, ∀ e ∈ Archive.written writers emissions name,
      "run_id" ∉ Dict.keys e.extra := by
    intro name e he
    obtain ⟨x, hx, -, rfl⟩ := Archive.of_mem_written he
    exact hkeys x hx
  -- a file is read back to what was written to it
  have hread : ∀ file ∈ (Archive.run writers emissions).files,
      (∀ e ∈ Archive.written writers emissions file.1, e.Unbroken) →
      readFile (writers i).runId file.2 = .ok (((Archive.written writers emissions file.1).filter
        (Event.asked (writers i).runId)).map Event.json) := by
    intro file hfile h
    rw [(Archive.of_mem_files hfile).2, readFile_write (hwritten file.1) h]
  have hpaths : tracePaths (Archive.run writers emissions).files "" (writers i).runId =
      .ok (((Archive.run writers emissions).files.filter fun file => globbed file.1).insertionSort
        fun a b => a.1 ≤ b.1) := by
    simp [tracePaths, hrun]
  -- the files are read in the order of their names, whatever the order they were made in
  have hperm := List.perm_insertionSort (fun a b : String × List Char => a.1 ≤ b.1)
    ((Archive.run writers emissions).files.filter fun file => globbed file.1)
  have hfile : ∀ file ∈ ((Archive.run writers emissions).files.filter fun file =>
      globbed file.1).insertionSort fun a b => a.1 ≤ b.1,
      file ∈ (Archive.run writers emissions).files ∧ globbed file.1 = true :=
    fun file hmem => List.mem_filter.mp (hperm.subset hmem)
  unfold cmdTrace
  rw [hpaths]
  constructor
  · intro hall
    have hreads := mapM_ok fun file hmem => hread file (hfile file hmem).1 fun e he => by
      obtain ⟨x, hx, hpath, rfl⟩ := Archive.of_mem_written he
      exact hall x hx (Writer.shown_of_path hpath (hfile file hmem).2)
    obtain ⟨name, hpath, hname⟩ := Writer.shown_iff.mp hshown
    simp only [Except.bind, bind, hreads, Archive.flatten_asked hrun halone hpath hname hperm,
      List.isEmpty_map, List.isEmpty_iff]
    split_ifs <;> rfl
  · rintro ⟨x, hx, hshown, hbroken⟩
    obtain ⟨name, hpath, hname⟩ := Writer.shown_iff.mp hshown
    have hmem : x.event writers ∈ Archive.written writers emissions name :=
      List.mem_map_of_mem (List.mem_filter.mpr ⟨hx, by simpa using hpath⟩)
    have hlookup : (Archive.run writers emissions).files.lookup name = _ :=
      Archive.lookup_run name
    rw [if_neg (List.ne_nil_of_mem hmem), Dict.lookup_eq_some_iff Archive.nodup_run] at hlookup
    have hfails : (((Archive.run writers emissions).files.filter fun file =>
        globbed file.1).insertionSort fun a b => a.1 ≤ b.1).mapM
          (fun file => readFile (writers i).runId file.2) = .error .jsonDecode := by
      refine mapM_error_of_mem (fun file hmem => ?_)
        (hperm.symm.subset (List.mem_filter.mpr ⟨hlookup, hname⟩))
        (readFile_write_of_broken hmem hbroken (hwritten name))
      have hfound := (hfile file hmem).1
      by_cases hall : ∀ e ∈ Archive.written writers emissions file.1, e.Unbroken
      · exact .inl ⟨_, hread file hfound hall⟩
      · obtain ⟨e, he, hbroken⟩ : ∃ e ∈ Archive.written writers emissions file.1,
            ¬e.Unbroken := by simpa using hall
        rw [(Archive.of_mem_files hfound).2]
        exact .inr (readFile_write_of_broken he hbroken (hwritten file.1))
    simp only [Except.bind, bind, hfails]

end ReadBack

/-- Two runs that write to one file. -/
def sharedFile (first : Bool) : Writer where
  runId := if first then "run_a" else "run_b"
  scenarioId := "demo"
  path := some "demo.jsonl"

/-- They take turns; the last event is about an order with the given id. -/
def turns (orderId : String) : List (Emission Bool) :=
  [⟨true, 0, { eventType := .userRequestReceived, decisionOwner := .planner }⟩,
   ⟨false, 0, { eventType := .userRequestReceived, decisionOwner := .planner }⟩,
   ⟨true, 1, { eventType := .proposalCreated, decisionOwner := .planner
               extra := [("attempt", .int 1)] }⟩,
   ⟨false, 1, { eventType := .proposalCreated, resourceId := orderId, decisionOwner := .planner
                extra := [("attempt", .int 1)] }⟩]

/-- Both runs are read back; an id with a line separator in one keeps both from being shown. -/
theorem trace_read_back_turns :
    cmdTrace (Archive.run sharedFile (turns "ord_0001")).files "" "run_a" =
      .ok (((Archive.run sharedFile (turns "ord_0001")).traces true).events.map Event.json) ∧
    cmdTrace (Archive.run sharedFile (turns "ord\u20280001")).files "" "run_a" =
      .error .jsonDecode := by
  have hkeys : ∀ orderId, ∀ e ∈ turns orderId, "run_id" ∉ Dict.keys e.fields.extra := by
    simp [turns, Dict.keys]
  have hread := fun orderId =>
    trace_read_back (i := true) (hkeys orderId) (show (sharedFile true).runId ≠ "" by decide)
      (by decide) (by decide +kernel)
  exact ⟨((hread "ord_0001").1 (by decide +kernel)).trans (if_neg (by decide +kernel)),
    (hread "ord\u20280001").2 (by decide +kernel)⟩

end BoundedRefund
