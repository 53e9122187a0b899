/-
CodingPolicy/Proofs/LogFile.lean

The text of the log file.  Every call of the program opens the file anew and writes
the blocks of its events behind what is there (`Invocation.LogAt`); an empty line
stands before each of its blocks but the first.  So over many calls the file holds
the texts of the calls one after the other, and the empty line that stands between
two blocks of one call is wanting between two calls.  A block with a surrogate is left
out.  The state must be kept in another file, since a saving leaves nothing of what was
logged in the same one.

Main results: what one call writes (`Launch.log_of_logsTo`), and what stands in the
file after any number of calls (`Launch.log_text`).
-/
import CodingPolicy.Proofs.Footprint
import CodingPolicy.Proofs.Logging
import Mathlib.Data.List.Forall2

namespace CodingPolicy

/-! ### Calls of the service -/

namespace Store

variable {d : Disk} {p : FilePath} {now : Text}

/-- **A call touches no file but the state file.** -/
theorem grown_of_call (now : Text) (p : FilePath) (call : Call) (d : Disk) :
    d.Grown (fun l => l = d.absolute p) ((backend now p).perform call d).world := by
  have hchange (step : State → Except Failure State) :
      d.Grown (fun l => l = d.absolute p) (change now p step d).world := by
    unfold change
    split
    · exact .refl d
    · next s _ => exact (saving now s p d).grown
  cases call with
  | list => exact .refl d
  | get path => exact .refl d
  | set path name => exact hchange _
  | unset path => exact hchange _

/-- The event that a state was saved is regular. -/
theorem regular_savedEvent (now : Text) (p : FilePath) : (savedEvent now p).Regular := by
  refine Log.Event.regular_make (by decide) (by decide) fun f hf => ?_
  rw [List.mem_singleton.1 hf]
  have hname : "state_file".text ≠ Log.Event.nameKey ∧ .char '\n' ∉ "state_file".text := by decide
  exact ⟨hname.1, hname.2, .string p.render⟩

/-- A saving logs regular events. -/
theorem Saving.regular {s : State} {reply : Reply Disk Unit} (h : Saving now s p d reply) :
    ∀ event ∈ reply.events, event.Regular := by
  cases h with
  | unreached => nofun
  | unwritten => nofun
  | written => exact List.forall_mem_singleton.2 (regular_savedEvent now p)

/-- **A call logs regular events.** -/
theorem regular_of_call (call : Call) (d : Disk) :
    ∀ event ∈ ((backend now p).perform call d).events, event.Regular := by
  have hchange (step : State → Except Failure State) :
      ∀ event ∈ (change now p step d).events, event.Regular := by
    unfold change
    split
    · nofun
    · next s _ => exact (saving now s p d).regular
  cases call with
  | list => nofun
  | get path => nofun
  | set path name => exact hchange _
  | unset path => exact hchange _

end Store

/-! ### The log of one call of the program -/

namespace Invocation

variable {now : Text} {around : Surroundings} {d : Disk} {args : List Text} {config : Config}
variable {l workingDir : Location} {old : List UInt8}

/-- The log file is open at the location, and behind what stood there it has the text of
the blocks of the events. -/
structure LogAt (now : Text) (l workingDir : Location) (old : List UInt8) (m : Machine)
    (events : List Log.Event) : Prop where
  /-- The working directory is the same. -/
  workingDir : m.disk.workingDir = workingDir
  /-- What is left of the blocks is written, and an empty line stands before the next one if
  there are any. -/
  written : ∃ blocks, Log.HaveBlocks now events blocks ∧
    m.log = some { location := l, isFresh := blocks.isEmpty } ∧
    m.disk.fileAt? l = some (old ++ Utf8.encode (Log.kept blocks))

/-- Logging an event writes its block. -/
theorem LogAt.record {m : Machine} {events : List Log.Event} {event : Log.Event}
    (h : LogAt now l workingDir old m events) (he : event.Regular) :
    LogAt now l workingDir old (m.record now event) (events ++ [event]) := by
  obtain ⟨blocks, hblocks, hlog, hfile⟩ := h.written
  obtain ⟨block, hblock, hsolid⟩ := he.block now
  have hrecord : m.record now event =
      { disk := m.disk.appendAt l
          (Utf8.encode (Log.File.entry (if blocks.isEmpty then [] else [.char '\n']) block))
        log := some { location := l, isFresh := false } } := by
    unfold Machine.record
    rw [hlog]
    dsimp only
    rw [Log.File.append_of_block he.enabled hblock]
  have hgrown : m.disk.Grown (fun _ => True) (m.record now event).disk := by
    rw [hrecord]
    exact .appendAt trivial
  refine ⟨hgrown.workingDir.trans h.workingDir, blocks ++ [block], hblocks.concat hblock hsolid,
    ?_, ?_⟩
  · rw [hrecord]
    simp
  · rw [hrecord, Disk.fileAt?_appendAt hfile, Log.kept_concat,
      Utf8.encode_append (Log.kept blocks), List.append_assoc]
    simp only [List.isEmpty_iff]

/-- The service of a call logs regular events. -/
theorem regular_of_call (now : Text) (config : Config) (call : Call) (m : Machine) :
    ∀ event ∈ ((setting now config).backend.perform call m).events, event.Regular := by
  have hb : (setting now config).backend = Machine.lift (Store.backend now config.stateFile) :=
    rfl
  rw [hb, Machine.perform_lift]
  exact Store.regular_of_call call m.disk

/-- **The log follows the events** where the state is kept in another file. -/
theorem follows_logAt (hstate : ∀ d : Disk, d.workingDir = workingDir →
    d.absolute config.stateFile ≠ l) :
    (setting now config).Follows (LogAt now l workingDir old) where
  logged event m events he hm := hm.record he
  called call m events hm := by
    have hgrown := Store.grown_of_call now config.stateFile call m.disk
    have hb : (setting now config).backend = Machine.lift (Store.backend now config.stateFile) :=
      rfl
    rw [hb, Machine.perform_lift]
    obtain ⟨blocks, hblocks, hlog, hfile⟩ := hm.written
    refine ⟨hgrown.workingDir.trans hm.workingDir, blocks, hblocks, hlog, ?_⟩
    -- a saving writes the state file alone
    rw [← hfile]
    exact hgrown.fileAt? fun he => hstate m.disk hm.workingDir he.symm
  regular := regular_of_call now config

/-- Once something is logged, it stays so. -/
theorem follows_ne_nil (now : Text) (config : Config) :
    (setting now config).Follows fun _ events => events ≠ [] where
  logged event m events _ _ := by simp
  called call m events hm := hm
  regular := regular_of_call now config

/-- A log that is opened keeps what stood in its file. -/
theorem logAt_of_openLog {log : Option Log.File} {d₁ : Disk}
    (hd : [.char '.', .char '.'] ∉ d.workingDir) (hplace : IsLogPlace config d l)
    (h : openLog config d = (.ok log, d₁)) (now : Text) :
    LogAt now l d.workingDir ((d.fileAt? l).getD []) { disk := d₁, log } [] := by
  obtain ⟨q, hq, rfl⟩ := hplace
  have hopening := Log.File.opening d q
  rw [openLog_of_logFile hq, Prod.mk.injEq] at h
  obtain ⟨hlog, rfl⟩ := h
  obtain ⟨file, hfile, rfl⟩ := map_eq_ok.1 hlog
  rw [hfile] at hopening
  generalize (Log.File.openFile d q).2 = d₁ at hopening
  cases hopening with
  | @opened d' d'' hm ho =>
    -- the directories above the file are made first, and then it is opened as it is
    have hgrown : d.GrownByDirectories d' := .makeDirs hm
    have hsame : d'.absolute q = d.absolute q := Disk.absolute_congr hgrown.workingDir q
    have hdots : [.char '.', .char '.'] ∉ d'.absolute q :=
      Disk.dots_not_mem_absolute (hgrown.workingDir ▸ hd) q
    have hopened : d'.Grown (fun _ => True) d₁ := .openAt ho hdots trivial
    have hfile' : d₁.fileAt? (d'.absolute q) = some ((d'.fileAt? (d'.absolute q)).getD []) :=
      Disk.fileAt?_openAt ho hdots
    have hempty : Utf8.encode (Log.kept []) = [] := rfl
    rw [hsame] at hfile' ⊢
    refine ⟨hopened.workingDir.trans hgrown.workingDir, [], .nil now, rfl, ?_⟩
    rw [hfile', hgrown.fileAt? id, hempty, List.append_nil]

/-- A call that is prepared has its configuration settled and its log open. -/
theorem settle_of_prepare {rest : List Text} {log : Option Log.File} {d₁ : Disk}
    (h : prepare around d args = (.ok (config, rest, log), d₁)) :
    settle around d args = .ok (config, rest) ∧ openLog config d = (.ok log, d₁) := by
  rcases hs : settle around d args with f | ⟨config', rest'⟩
  · unfold prepare at h
    rw [hs] at h
    cases h
  · rw [prepare_of_settle hs, Prod.mk.injEq] at h
    obtain ⟨hlog, rfl⟩ := h
    obtain ⟨log', hlog', he⟩ := map_eq_ok.1 hlog
    cases he
    exact ⟨rfl, Prod.ext hlog' rfl⟩

/-- The events that a call of the program logs. -/
def events (now : Text) (around : Surroundings) (d : Disk) (args : List Text) : List Log.Event :=
  match prepare around d args with
  | (.ok (config, rest, log), d) =>
    (SessionM.exec (Dispatch.run (setting now config) config rest)
      (Dispatch.fresh { disk := d, log })).2.events
  | (.error _, _) => []

end Invocation

/-! ### Calls of the program one after the other -/

/-- What a call of the program is made with. -/
structure Launch where
  /-- The time. -/
  now : Text
  /-- The surroundings. -/
  around : Surroundings
  /-- The arguments. -/
  args : List Text

namespace Launch

open Invocation

variable {l : Location} {d : Disk} {launches : List Launch}

/-- The result on a disk. -/
def result (x : Launch) (d : Disk) : Invocation.Result :=
  Invocation.run x.now x.around d x.args

/-- The events that are logged on a disk. -/
def events (x : Launch) (d : Disk) : List Log.Event :=
  Invocation.events x.now x.around d x.args

/-- The disk after calls that are made one after the other. -/
def after (launches : List Launch) (d : Disk) : Disk :=
  launches.foldl (fun d x => (x.result d).disk) d

/-- The events of such calls, those of each with its time. -/
def logs : List Launch → Disk → List (Text × List Log.Event)
  | [], _ => []
  | x :: r, d => (x.now, x.events d) :: logs r (x.result d).disk

/-- Where the configuration is settled, the log is kept at the location, and the state is
kept in another place. -/
def LogsTo (l : Location) (d : Disk) (x : Launch) : Prop :=
  ∀ config rest, settle x.around d x.args = .ok (config, rest) →
    IsLogPlace config d l ∧ d.absolute config.stateFile ≠ l

/-- Each of the calls, on the disk that those before it left, keeps its log at the
location. -/
def AllLogTo (l : Location) : List Launch → Disk → Prop
  | [], _ => True
  | x :: r, d => x.LogsTo l d ∧ AllLogTo l r (x.result d).disk

/-- **A call writes what is left of the blocks of its events behind what is in the log
file**, and the file is there if it logs anything. -/
theorem log_of_logsTo {x : Launch} (hd : [.char '.', .char '.'] ∉ d.workingDir)
    (h : x.LogsTo l d) :
    (x.result d).disk.workingDir = d.workingDir ∧
    ∃ blocks, Log.HaveBlocks x.now (x.events d) blocks ∧
      ((x.result d).disk.fileAt? l).getD [] =
        (d.fileAt? l).getD [] ++ Utf8.encode (Log.kept blocks) ∧
      (x.events d ≠ [] → (x.result d).disk.fileAt? l ≠ none) := by
  rcases e : prepare x.around d x.args with ⟨f | ⟨config, rest, log⟩, d₁⟩
  · -- no command is run, and nothing is written
    have hfailed : (prepare x.around d x.args).1 = .error f := by rw [e]
    have hgrown : d.GrownByDirectories (x.result d).disk := by
      rw [result, disk_of_prepare_error hfailed]
      exact grown_of_prepare_error hfailed
    have hnone : x.events d = [] := by rw [events, Invocation.events, e]
    have hnothing : Utf8.encode (Log.kept []) = [] := rfl
    refine ⟨hgrown.workingDir, [], hnone ▸ .nil x.now, ?_, fun h => absurd hnone h⟩
    rw [hgrown.fileAt? id, hnothing, List.append_nil]
  · obtain ⟨hs, ho⟩ := settle_of_prepare e
    obtain ⟨hplace, hstate⟩ := h config rest hs
    have hopen := logAt_of_openLog hd hplace ho x.now
    have hfollows : (setting x.now config).Follows
        (LogAt x.now l d.workingDir ((d.fileAt? l).getD [])) :=
      follows_logAt fun d' hw => by rwa [Disk.absolute_congr hw]
    -- the log follows the events to the end of the run
    have hcourse := Dispatch.course (setting x.now config) config { disk := d₁, log } rest
    have hend := hcourse.follows hfollows hopen
    obtain ⟨blocks, hblocks, -, hfile⟩ := hend.written
    have hthere : (x.result d).disk.fileAt? l =
        some ((d.fileAt? l).getD [] ++ Utf8.encode (Log.kept blocks)) := by
      rw [result, run, e]
      exact hfile
    refine ⟨?_, blocks, ?_, ?_, fun _ => ?_⟩
    · rw [result, run, e]
      exact hend.workingDir
    · rw [events, Invocation.events, e]
      exact hblocks
    · rw [hthere]
      rfl
    · rw [hthere]
      nofun

/-- A command that is found is logged. -/
theorem events_ne_nil {x : Launch} {config : Config} {name : Text} {args : List Text}
    {log : Option Log.File} {d₁ : Disk} {spec : Command.Spec}
    (h : prepare x.around d x.args = (.ok (config, name :: args, log), d₁))
    (hn : Command.resolve name = .ok spec) : x.events d ≠ [] := by
  rw [events, Invocation.events, h]
  exact (Dispatch.course (setting x.now config) config { disk := d₁, log }
    (name :: args)).events_ne_nil (follows_ne_nil x.now config) hn

/-- Calls write the texts of their blocks one after the other. -/
theorem log_of_allLogTo (hd : [.char '.', .char '.'] ∉ d.workingDir) (h : AllLogTo l launches d) :
    ∃ written, List.Forall₂ (fun x blocks => Log.HaveBlocks x.1 x.2 blocks) (logs launches d)
        written ∧
      ((after launches d).fileAt? l).getD [] =
        (d.fileAt? l).getD [] ++ Utf8.encode (written.flatMap Log.kept) := by
  induction launches generalizing d with
  | nil => exact ⟨[], .nil, (List.append_nil _).symm⟩
  | cons x launches ih =>
    obtain ⟨hx, hlater⟩ := h
    obtain ⟨hw, blocks, hblocks, hfile, -⟩ := log_of_logsTo hd hx
    -- what the first call leaves is what the others find
    obtain ⟨written, hwritten, hfiles⟩ := ih (hw ▸ hd) hlater
    refine ⟨blocks :: written, .cons hblocks hwritten, ?_⟩
    show ((after launches (x.result d).disk).fileAt? l).getD [] = _
    rw [hfiles, hfile, List.flatMap_cons, Utf8.encode_append, List.append_assoc]

/-- As many of the calls have written blocks as have logged events. -/
theorem length_filter_of_haveBlocks {logged : List (Text × List Log.Event)}
    {written : List (List Text)}
    (h : List.Forall₂ (fun x blocks => Log.HaveBlocks x.1 x.2 blocks) logged written) :
    (written.filter (· ≠ [])).length = (logged.filter (·.2 ≠ [])).length := by
  induction h with
  | nil => rfl
  | @cons x blocks logged written hblocks h ih =>
    by_cases hx : x.2 = []
    · have hnone := hblocks.eq_nil_iff.2 hx
      rwa [List.filter_cons_of_neg (by simp [hnone]), List.filter_cons_of_neg (by simp [hx])]
    · have hsome := mt hblocks.eq_nil_iff.1 hx
      rw [List.filter_cons_of_pos (by simp [hsome]), List.filter_cons_of_pos (by simp [hx]),
        List.length_cons, List.length_cons, ih]

/-! ### A command in two calls -/

/-- A call that keeps a log. -/
def listing : Launch where
  now := "2024-01-02T03:04:05.678901+00:00".text
  around := { home := "/h".text }
  args := ["-Dstate_file=s".text, "-Dlog_file=l".text, "-listPolicies".text]

/-- The configuration of the call. -/
def listingConfig : Config where
  defaultFs := Config.defaultFileSystem
  stateFile := { segments := ["s".text] }
  workingDir := [.char '/']
  logFile := some { segments := ["l".text] }

theorem settle_listing (d : Disk) : settle listing.around d listing.args =
    .ok (listingConfig, ["-listPolicies".text]) := rfl

theorem logsTo_listing (hw : d.workingDir = []) : listing.LogsTo ["l".text] d := by
  intro config rest hs
  rw [settle_listing] at hs
  cases hs
  have hplace (p : FilePath) : d.absolute p = Disk.absolute {} p := Disk.absolute_congr hw p
  refine ⟨⟨_, rfl, ?_⟩, ?_⟩
  · rw [hplace]
    decide
  · rw [hplace]
    decide

theorem allLogTo_listing (hw : d.workingDir = []) (n : Nat) :
    AllLogTo ["l".text] (List.replicate n listing) d := by
  induction n generalizing d with
  | zero => trivial
  | succ n ih =>
    have h := logsTo_listing hw
    have hd : [.char '.', .char '.'] ∉ d.workingDir := by
      rw [hw]
      exact List.not_mem_nil
    exact ⟨h, ih ((log_of_logsTo hd h).1.trans hw)⟩

/-- The log of the call can be opened where no directory is in its place. -/
theorem prepare_listing (hw : d.workingDir = []) (hl : d.find? ["l".text] ≠ some .directory) :
    ∃ log d₁, prepare listing.around d listing.args =
      (.ok (listingConfig, ["-listPolicies".text], log), d₁) := by
  obtain ⟨entries, workingDir, room⟩ := d
  cases hw
  have hwrite : Disk.checkWritable { entries, room } ["l".text] = .ok () := by
    unfold Disk.checkWritable
    split
    · contradiction
    · rfl
    · rfl
  have hshort : Disk.exceeds Disk.nameLimit
      (FilePath.render { anchor := .root, segments := ["l".text] }) = false := by
    decide
  obtain ⟨d₁, hfile⟩ := Log.File.exists_openFile (d := { entries, room })
    (p := { segments := ["l".text] }) rfl rfl hshort rfl hwrite
  refine ⟨some { location := ["l".text] }, d₁, ?_⟩
  rw [prepare_of_settle (settle_listing _), openLog_of_logFile rfl, hfile]
  rfl

theorem events_listing_ne_nil (hw : d.workingDir = [])
    (hl : d.find? ["l".text] ≠ some .directory) : listing.events d ≠ [] := by
  obtain ⟨log, d₁, h⟩ := prepare_listing hw hl
  exact events_ne_nil h (Command.resolve_text .listPolicies)

/-- After the first call that logs something the log can be opened again. -/
theorem disk_after_listing (h : listing.events {} ≠ []) :
    (listing.result {}).disk.workingDir = [] ∧
      (listing.result {}).disk.find? ["l".text] ≠ some .directory := by
  obtain ⟨hw, -, -, -, hthere⟩ := log_of_logsTo (by decide) (logsTo_listing (d := {}) rfl)
  refine ⟨hw, fun hdirectory => hthere h ?_⟩
  rw [Disk.fileAt?, hdirectory]

/-! ### Main result -/

/-- **The text of the log file.**  The calls are made one after the other, and each keeps
its log at the same place, where no file was, and its state at another place.  Then the
events of each call have blocks without empty lines, and the file holds the texts of the
calls one after the other; in each text an empty line stands between two blocks that
follow one another, and blocks with a surrogate are left out.  This is the text of all the
blocks just where there is no such block and at most one of the calls has logged
anything. -/
theorem log_text (launches : List Launch) (d : Disk) (l : Location)
    (hd : [.char '.', .char '.'] ∉ d.workingDir) (habsent : d.fileAt? l = none)
    (h : AllLogTo l launches d) :
    ∃ written, List.Forall₂ (fun x blocks => Log.HaveBlocks x.1 x.2 blocks) (logs launches d)
        written ∧
      ((after launches d).fileAt? l).getD [] = Utf8.encode (written.flatMap Log.kept) ∧
      (written.flatMap Log.kept = Log.separated written.flatten ↔
        (∀ block ∈ written.flatten, Utf8.writeFault? block = none) ∧
          ((logs launches d).filter (·.2 ≠ [])).length ≤ 1) := by
  obtain ⟨written, hwritten, hfile⟩ := log_of_allLogTo hd h
  rw [habsent, Option.getD_none, List.nil_append] at hfile
  refine ⟨written, hwritten, hfile, ?_⟩
  rw [Log.flatMap_kept_iff, length_filter_of_haveBlocks hwritten]

/-- The text that two calls leave. -/
theorem log_text_of_two :
    AllLogTo ["l".text] (List.replicate 2 listing) {} ∧
    ∃ written, List.Forall₂ (fun x blocks => Log.HaveBlocks x.1 x.2 blocks)
        (logs (List.replicate 2 listing) {}) written ∧
      ((after (List.replicate 2 listing) {}).fileAt? ["l".text]).getD [] =
        Utf8.encode (written.flatMap Log.kept) ∧
      (written.flatMap Log.kept = Log.separated written.flatten ↔
        (∀ block ∈ written.flatten, Utf8.writeFault? block = none) ∧
          ((logs (List.replicate 2 listing) {}).filter (·.2 ≠ [])).length ≤ 1) := by
  have hall := allLogTo_listing (d := {}) rfl 2
  exact ⟨hall, log_text _ {} _ (by decide) rfl hall⟩

/-- A log to which two calls write is not the text of their blocks: the empty line between
the last block of the one and the first block of the other is wanting. -/
theorem not_always_separated :
    ¬ ∀ (launches : List Launch) (d : Disk) (l : Location),
      [.char '.', .char '.'] ∉ d.workingDir → d.fileAt? l = none → AllLogTo l launches d →
      ∀ written,
      List.Forall₂ (fun x blocks => Log.HaveBlocks x.1 x.2 blocks) (logs launches d) written →
      Utf8.decode (((after launches d).fileAt? l).getD []) =
        .ok (Log.separated written.flatten) := by
  intro h
  have hall := allLogTo_listing (d := {}) rfl 2
  obtain ⟨written, hwritten, hfile⟩ := log_of_allLogTo (by decide) hall
  have hclaim := h _ {} _ (by decide) rfl hall written hwritten
  have hnone : Utf8.writeFault? (written.flatMap Log.kept) = none :=
    Utf8.writeFault?_flatMap_eq_none.2 fun blocks _ => Log.writeFault?_kept blocks
  have hread : Utf8.decode (((after (List.replicate 2 listing) {}).fileAt? ["l".text]).getD []) =
      .ok (written.flatMap Log.kept) := by
    rw [hfile]
    exact Utf8.decode_encode hnone
  rw [hread] at hclaim
  obtain ⟨-, hone⟩ := (Log.flatMap_kept_iff written).1 (Except.ok.inj hclaim)
  rw [length_filter_of_haveBlocks hwritten] at hone
  -- both calls run a command, which is logged
  have htwo : logs (List.replicate 2 listing) {} = [(listing.now, listing.events {}),
      (listing.now, listing.events (listing.result {}).disk)] := rfl
  have hfirst := events_listing_ne_nil (d := {}) rfl (by decide)
  have hsecond : listing.events (listing.result {}).disk ≠ [] := by
    obtain ⟨hw, hplace⟩ := disk_after_listing hfirst
    exact events_listing_ne_nil hw hplace
  rw [htwo] at hone
  simp [hfirst, hsecond] at hone

end Launch

end CodingPolicy
