import VermouthGateway.Logger.Rotations

/-!
# The journal of a file writer

`Journal` is what the archives and the current file are for: a sequence of texts,
cut in some places.  It knows no file names, so no archive can replace another.

* `Journal.write` decides on the rotations as the code does, from the clock, the
  lines and the size.
* `Follows` relates the state of the code to a journal, and
  `Follows.writeByConfig` is the simulation.
* `texts_writeAll`: the journal of a run has all texts, in order.
-/

namespace VermouthGateway
namespace Logger

open Go

/-- The line ends in the texts of a file. -/
def newlines (content : List String) : Nat := (content.flatMap String.toList).count '\n'

theorem newlines_append (content : List String) (text : String) :
    newlines (content ++ [text]) = newlines content + text.toList.count '\n' := by
  rw [newlines, newlines, List.flatMap_append, List.count_append, List.flatMap_singleton]

structure Journal where
  /-- The archives in the order in which they were made. -/
  archives : List (Rotation × List String)
  current : List String
  startTime : Int
  ticks : Nat

namespace Journal

section Steps

variable (clock : Nat → Int) (zone : Int → DateTime)

/-- The journal of a file that was not there. -/
def started : Journal where
  archives := []
  current := []
  startTime := clock 0 / 10 ^ 9
  ticks := 1

/-- The clock was read. -/
def tick (j : Journal) : Journal := { j with ticks := j.ticks + 1 }

/-- What was written so far becomes an archive. -/
def rotate (r : Rotation) (j : Journal) : Journal where
  archives := j.archives ++ [(r, j.current)]
  current := []
  startTime := clock j.ticks / 10 ^ 9
  ticks := j.ticks + 1

/-- The process starts anew. -/
def restart (j : Journal) : Journal :=
  { j with startTime := clock j.ticks / 10 ^ 9, ticks := j.ticks + 1 }

def sliceByDate (dateSlice : String) (j : Journal) : Journal :=
  let start := zone (j.startTime * 10 ^ 9)
  if dateSlice ∈ ["y", "m", "d", "h"] ∧
      dateStamp dateSlice start ≠ dateStamp dateSlice (zone (clock j.ticks)) then
    j.tick.rotate clock ⟨.date, start⟩
  else j.tick

def sliceByLine (maxLine : Int) (j : Journal) : Journal :=
  if 1 + (newlines j.current : Int) ≥ maxLine then
    j.tick.rotate clock ⟨.line, zone (clock j.ticks)⟩
  else j

def sliceBySize (maxSize : Int) (j : Journal) : Journal :=
  if (bytes j.current : Int) / 1024 ≥ maxSize then
    j.tick.rotate clock ⟨.size, zone (clock j.ticks)⟩
  else j

/-- The rotations before a write, each when it is configured. -/
def slice (cfg : LogArgs) (j : Journal) : Journal :=
  let j := if cfg.dateSlice ≠ "" then j.sliceByDate clock zone cfg.dateSlice else j
  let j := if cfg.maxLine ≠ 0 then j.sliceByLine clock zone cfg.maxLine else j
  if cfg.maxSize ≠ 0 then j.sliceBySize clock zone cfg.maxSize else j

def append (text : String) (j : Journal) : Journal :=
  { j with current := j.current ++ [text] }

def write (cfg : LogArgs) (j : Journal) (text : String) : Journal :=
  (j.slice clock zone cfg).append text

/-- A write or a restart. -/
def step (serverName : String) (cfg : LogArgs) (j : Journal) : FileEvent → Journal
  | .write msg => j.write clock zone cfg (messageLine serverName cfg.format msg)
  | .restart => j.restart clock

end Steps

/-- All that was written. -/
def texts (j : Journal) : List String := j.archives.flatMap Prod.snd ++ j.current

/-- The stamps of the archives. -/
def stamps (dateSlice : String) (j : Journal) : List Stamp :=
  j.archives.map fun a => a.1.stamp dateSlice

section Texts

variable (clock : Nat → Int) (zone : Int → DateTime)

@[simp] theorem texts_tick (j : Journal) : j.tick.texts = j.texts := rfl

@[simp] theorem texts_rotate (r : Rotation) (j : Journal) :
    (j.rotate clock r).texts = j.texts := by
  simp [texts, rotate]

@[simp] theorem texts_sliceByDate (dateSlice : String) (j : Journal) :
    (j.sliceByDate clock zone dateSlice).texts = j.texts := by
  rw [sliceByDate]
  split <;> simp

@[simp] theorem texts_sliceByLine (maxLine : Int) (j : Journal) :
    (j.sliceByLine clock zone maxLine).texts = j.texts := by
  rw [sliceByLine]
  split <;> simp

@[simp] theorem texts_sliceBySize (maxSize : Int) (j : Journal) :
    (j.sliceBySize clock zone maxSize).texts = j.texts := by
  rw [sliceBySize]
  split <;> simp

/-- Rotations move texts and lose none. -/
theorem texts_slice (cfg : LogArgs) (j : Journal) :
    (j.slice clock zone cfg).texts = j.texts := by
  simp only [slice]
  split <;> split <;> split <;> simp

theorem texts_write (cfg : LogArgs) (j : Journal) (text : String) :
    (j.write clock zone cfg text).texts = j.texts ++ [text] := by
  rw [write, append, texts, ← List.append_assoc, ← texts_slice clock zone cfg j, texts]

theorem texts_writeAll (cfg : LogArgs) (j : Journal) (lines : List String) :
    (lines.foldl (write clock zone cfg) j).texts = j.texts ++ lines := by
  induction lines generalizing j with
  | nil => exact (List.append_nil _).symm
  | cons text lines ih =>
      rw [List.foldl_cons, ih, texts_write, List.append_assoc, List.singleton_append]

end Texts

end Journal

/-! ## The code follows a journal -/

theorem countLines_eq (n : Int) (cs : List Char) : countLines n cs = n + cs.count '\n' := by
  induction cs generalizing n with
  | nil => simp [countLines]
  | cons c cs ih =>
      rw [countLines, ih, List.count_cons]
      by_cases hc : c = '\n'
      · simp [hc]
        omega
      · simp [hc]

/-- The files are those of the journal: each archive under its name, a later one in the
place of an earlier one of the same name, and the current file. -/
structure Follows (cfg : LogArgs) (fn : String) (w : World) (j : Journal) : Prop where
  fileName : w.fw.fileName = fn
  writer : w.fw.writer = some fn
  startTime : w.fw.startTime = j.startTime
  startLine : cfg.maxLine ≠ 0 → w.fw.startLine = 1 + newlines j.current
  ticks : w.ticks = j.ticks
  renamed : w.renamed = j.archives.map fun a => (a.1.name fn cfg.dateSlice, a.2)
  files : w.files =
    (w.renamed.foldl (fun m a => m.insert a.1 a.2) (∅ : GoMap String (List String))).insert
      fn j.current

section Runs

variable (clock : Nat → Int) (zone : Int → DateTime)

/-- The writer after `initFile`. -/
def opened (w : World) (content : List String) : World :=
  { w with
    files := w.files.insert w.fw.fileName content
    ticks := w.ticks + 1
    fw := { w.fw with
      writer := some w.fw.fileName
      startTime := clock w.ticks / 10 ^ 9
      startLine := 1 + newlines content } }

/-- `initFile`, on a file that is there. -/
theorem run_initFile_ready {w : World} {content : List String}
    (hcontent : w.files.lookup w.fw.fileName = some content) :
    EStateM.run (initFile clock) w = .ok () (opened clock w content) := by
  have hmem : w.fw.fileName ∈ w.files := Finmap.mem_iff.mpr ⟨content, hcontent⟩
  simp only [initFile, EStateM.run_bind, EStateM.run_get, run_pathExists, hmem, decide_true,
    Bool.not_true, Bool.false_eq_true, if_false, run_now, run_update, run_getFileLines,
    run_getFileObject, onContent, hcontent, countLines_eq, opened,
    GoMap.insert_lookup_self hcontent]
  rfl

/-- `initFile`, on a file that is not there. -/
theorem run_initFile_absent {w : World} (habsent : w.fw.fileName ∉ w.files) :
    EStateM.run (initFile clock) w = .ok () (opened clock w []) := by
  simp only [initFile, EStateM.run_bind, EStateM.run_get, run_pathExists, habsent, decide_false,
    Bool.not_false, if_true, run_now, run_update, run_createFile, run_getFileLines,
    run_getFileObject, onContent, Finmap.lookup_insert, countLines_eq, opened]
  rfl

/-- The writer after it has made an archive. -/
def archived (w : World) (name : String) (content : List String) : World :=
  opened clock { w with
    files := (w.files.erase w.fw.fileName).insert name content
    renamed := w.renamed ++ [(name, content)]
    fw := { w.fw with writer := none } } []

/-- The current file is renamed, and a new one is opened. -/
theorem run_rotate {w : World} {name : String} {content : List String}
    (hcontent : w.files.lookup w.fw.fileName = some content) (hname : name ≠ w.fw.fileName) :
    EStateM.run (do rename w.fw.fileName name; initFile clock)
        { w with fw := { w.fw with writer := none } } =
      .ok () (archived clock w name content) := by
  have habsent : w.fw.fileName ∉ (w.files.erase w.fw.fileName).insert name content := by
    rw [← Finmap.lookup_eq_none, GoMap.lookup_insert_eq, if_neg (Ne.symm hname),
      Finmap.lookup_erase]
  rw [EStateM.run_bind, run_rename]
  dsimp only
  rw [hcontent]
  exact run_initFile_absent clock habsent

/-- `sliceByDate`, on a file that is there. -/
theorem run_sliceByDate (zone : Int → DateTime) (dateSlice : String) {w : World}
    {content : List String} (hcontent : w.files.lookup w.fw.fileName = some content) :
    EStateM.run (sliceByDate clock zone dateSlice) w = .ok ()
      (match dateArchive w.fw.fileName dateSlice (zone (w.fw.startTime * 10 ^ 9))
          (zone (clock w.ticks)) with
        | none => { w with ticks := w.ticks + 1 }
        | some name => archived clock { w with ticks := w.ticks + 1 } name content) := by
  rw [sliceByDate, EStateM.run_bind, EStateM.run_get]
  dsimp only
  rw [EStateM.run_bind, run_now]
  dsimp only
  cases harchive : dateArchive w.fw.fileName dateSlice (zone (w.fw.startTime * 10 ^ 9))
      (zone (clock w.ticks)) with
  | none => rfl
  | some name =>
      dsimp only
      rw [EStateM.run_bind, run_close]
      have hname : name ≠ w.fw.fileName := by
        rw [dateArchive_name harchive]
        exact Rotation.name_ne _ _ _
      exact run_rotate (w := { w with ticks := w.ticks + 1 }) clock hcontent hname

variable {cfg : LogArgs} {fn : String} {w : World} {j : Journal}

namespace Follows

/-- The current file of the journal. -/
theorem lookup (h : Follows cfg fn w j) : w.files.lookup fn = some j.current := by
  rw [h.files, Finmap.lookup_insert]

theorem content (h : Follows cfg fn w j) : w.files.lookup w.fw.fileName = some j.current := by
  rw [h.fileName, h.lookup]

theorem tick (h : Follows cfg fn w j) :
    Follows cfg fn { w with ticks := w.ticks + 1 } j.tick where
  fileName := h.fileName
  writer := h.writer
  startTime := h.startTime
  startLine := h.startLine
  ticks := congrArg (· + 1) h.ticks
  renamed := h.renamed
  files := h.files

/-- An archive of the code is one of the journal. -/
theorem archived (h : Follows cfg fn w j) (r : Rotation) :
    Follows cfg fn (archived clock w (r.name fn cfg.dateSlice) j.current) (j.rotate clock r) where
  fileName := h.fileName
  writer := congrArg some h.fileName
  startTime := by
    rw [Journal.rotate, ← h.ticks]
    rfl
  startLine _ := rfl
  ticks := congrArg (· + 1) h.ticks
  renamed := by
    simp only [Logger.archived, opened, Journal.rotate, List.map_append, List.map_cons,
      List.map_nil, h.renamed]
  files := by
    simp only [Logger.archived, opened, Journal.rotate, List.foldl_append, List.foldl_cons,
      List.foldl_nil, h.fileName]
    refine Finmap.ext_lookup fun name => ?_
    -- under any other name the files are those of before, and the new archive
    by_cases hname : name = fn
    · simp only [GoMap.lookup_insert_eq, if_pos hname]
    · simp only [GoMap.lookup_insert_eq, if_neg hname, GoMap.lookup_erase_eq, h.files]

/-- The archive of the other two slices is named after the clock. -/
theorem rotateNow (zone : Int → DateTime) (h : Follows cfg fn w j) (rule : Rule) :
    ∃ w', EStateM.run (do
        close
        let t ← now clock
        rename fn (Rotation.name fn cfg.dateSlice ⟨rule, zone t⟩)
        initFile clock) w = .ok () w' ∧
      Follows cfg fn w' (j.tick.rotate clock ⟨rule, zone (clock w.ticks)⟩) := by
  refine ⟨_, ?_, h.tick.archived clock ⟨rule, zone (clock w.ticks)⟩⟩
  have hname := Rotation.name_ne fn cfg.dateSlice ⟨rule, zone (clock w.ticks)⟩
  have hrotate := run_rotate clock h.tick.content (h.fileName.symm ▸ hname)
  rw [EStateM.run_bind, run_close]
  dsimp only
  rw [EStateM.run_bind, run_now]
  rwa [h.tick.fileName] at hrotate

/-- The three slices of the code are those of the journal. -/
theorem sliceByDate (zone : Int → DateTime) (h : Follows cfg fn w j) :
    ∃ w', EStateM.run (sliceByDate clock zone cfg.dateSlice) w = .ok () w' ∧
      Follows cfg fn w' (j.sliceByDate clock zone cfg.dateSlice) := by
  refine ⟨_, run_sliceByDate clock zone cfg.dateSlice h.content, ?_⟩
  rw [dateArchive_eq, Journal.sliceByDate, ← h.startTime, ← h.ticks, h.fileName]
  by_cases hdue : cfg.dateSlice ∈ ["y", "m", "d", "h"] ∧
      dateStamp cfg.dateSlice (zone (w.fw.startTime * 10 ^ 9)) ≠
        dateStamp cfg.dateSlice (zone (clock w.ticks))
  · rw [if_pos hdue, if_pos hdue]
    exact h.tick.archived clock ⟨.date, zone (w.fw.startTime * 10 ^ 9)⟩
  · rw [if_neg hdue, if_neg hdue]
    exact h.tick

theorem sliceByLine (zone : Int → DateTime) (hline : cfg.maxLine ≠ 0) (h : Follows cfg fn w j) :
    ∃ w', EStateM.run (sliceByLine clock zone cfg.maxLine) w = .ok () w' ∧
      Follows cfg fn w' (j.sliceByLine clock zone cfg.maxLine) := by
  rw [Logger.sliceByLine, EStateM.run_bind, EStateM.run_get]
  dsimp only
  rw [run_when, h.startLine hline, h.fileName, Journal.sliceByLine, ← h.ticks]
  by_cases hdue : 1 + (newlines j.current : Int) ≥ cfg.maxLine
  · rw [if_pos hdue, if_pos hdue]
    exact h.rotateNow clock zone .line
  · rw [if_neg hdue, if_neg hdue]
    exact ⟨_, rfl, h⟩

theorem sliceBySize (zone : Int → DateTime) (h : Follows cfg fn w j) :
    ∃ w', EStateM.run (sliceBySize clock zone cfg.maxSize) w = .ok () w' ∧
      Follows cfg fn w' (j.sliceBySize clock zone cfg.maxSize) := by
  rw [Logger.sliceBySize, EStateM.run_bind, EStateM.run_get]
  dsimp only
  rw [EStateM.run_bind, run_getFileSize, onContent, h.content]
  dsimp only
  rw [run_when, h.fileName, Journal.sliceBySize, ← h.ticks]
  by_cases hdue : (bytes j.current : Int) / 1024 ≥ cfg.maxSize
  · rw [if_pos hdue, if_pos hdue]
    exact h.rotateNow clock zone .size
  · rw [if_neg hdue, if_neg hdue]
    exact ⟨_, rfl, h⟩

/-- A rotation, if it is configured, and what comes after it. -/
theorem when (h : Follows cfg fn w j) {c : Prop} [Decidable c] {op : FileOp Unit}
    {rest : Unit → FileOp Unit} {f : Journal → Journal} {j' : Journal}
    (hop : c → ∃ w', EStateM.run op w = .ok () w' ∧ Follows cfg fn w' (f j))
    (hrest : ∀ w', Follows cfg fn w' (if c then f j else j) →
      ∃ w'', EStateM.run (rest ()) w' = .ok () w'' ∧ Follows cfg fn w'' j') :
    ∃ w'', EStateM.run (if c then op >>= rest else rest ()) w = .ok () w'' ∧
      Follows cfg fn w'' j' := by
  by_cases hc : c
  · rw [if_pos hc] at hrest ⊢
    obtain ⟨w', hrun, hfollows⟩ := hop hc
    rw [EStateM.run_bind, hrun]
    exact hrest w' hfollows
  · rw [if_neg hc] at hrest ⊢
    exact hrest w h

/-- The text is written, and its lines are counted when that matters. -/
theorem append (h : Follows cfg fn w j) (text : String) {startLine : Int}
    (hstart : cfg.maxLine ≠ 0 → startLine = w.fw.startLine + text.toList.count '\n') :
    Follows cfg fn
      { w with
        files := w.files.insert fn (j.current ++ [text])
        fw := { w.fw with startLine := startLine } }
      (j.append text) where
  fileName := h.fileName
  writer := h.writer
  startTime := h.startTime
  startLine hline := by
    dsimp only
    rw [hstart hline, h.startLine hline, Journal.append, newlines_append, Nat.cast_add,
      Int.add_assoc]
  ticks := h.ticks
  renamed := h.renamed
  files := by
    rw [h.files, Finmap.insert_insert, Journal.append]

/-- The simulation: a call of the code succeeds, and is a write to the journal. -/
theorem writeByConfig (zone : Int → DateTime) (serverName : String) (msg : Message)
    (h : Follows cfg fn w j) :
    ∃ w', EStateM.run (writeByConfig clock zone serverName cfg msg) w = .ok () w' ∧
      Follows cfg fn w' (j.write clock zone cfg (messageLine serverName cfg.format msg)) := by
  rw [Logger.writeByConfig]
  refine h.when (fun _ => h.sliceByDate clock zone) fun w₁ h₁ => ?_
  refine h₁.when (fun hline => h₁.sliceByLine clock zone hline) fun w₂ h₂ => ?_
  refine h₂.when (fun _ => h₂.sliceBySize clock zone) fun w₃ h₃ => ?_
  rw [EStateM.run_bind, run_write fn w₃ _ h₃.writer h₃.lookup]
  dsimp only
  by_cases hline : cfg.maxLine ≠ 0
  · rw [if_pos hline]
    exact ⟨_, rfl, h₃.append _ fun _ => rfl⟩
  · rw [if_neg hline]
    exact ⟨_, rfl, h₃.append _ fun h => absurd h hline⟩

theorem restart (h : Follows cfg fn w j) :
    ∃ w', EStateM.run (reopen clock) w = .ok () w' ∧ Follows cfg fn w' (j.restart clock) := by
  have hready := run_initFile_ready clock
    (w := { w with fw := newFileWriter w.fw.fileName }) h.content
  rw [reopen, EStateM.run_bind, run_update]
  dsimp only
  refine ⟨_, hready, ⟨h.fileName, congrArg some h.fileName, ?_, fun _ => rfl, ?_, h.renamed, ?_⟩⟩
  · rw [Journal.restart, ← h.ticks]
    rfl
  · exact congrArg (· + 1) h.ticks
  · have hsame := GoMap.insert_lookup_self h.content
    rw [h.fileName] at hsame
    rw [opened, newFileWriter]
    dsimp only
    rw [h.fileName, hsame]
    exact h.files

/-- Every message is accepted, and the journal has what was written of it. -/
theorem writeAll (zone : Int → DateTime) (serverName : String) (msgs : List Message)
    (h : Follows cfg fn w j) :
    let lines := msgs.map (messageLine serverName cfg.format)
    (writeAll clock zone serverName cfg msgs w).1 = lines ∧
      Follows cfg fn (writeAll clock zone serverName cfg msgs w).2
        (lines.foldl (Journal.write clock zone cfg) j) := by
  induction msgs generalizing w j with
  | nil => exact ⟨rfl, h⟩
  | cons msg msgs ih =>
      obtain ⟨w', hrun, hfollows⟩ := h.writeByConfig clock zone serverName msg
      obtain ⟨htexts, hrest⟩ := ih hfollows
      rw [Logger.writeAll, hrun]
      exact ⟨congrArg _ htexts, hrest⟩

/-- With restarts in between, the code still follows the journal. -/
theorem runEvents (zone : Int → DateTime) (serverName : String) (events : List FileEvent)
    (h : Follows cfg fn w j) :
    Follows cfg fn (runEvents clock zone serverName cfg events w)
      (events.foldl (Journal.step clock zone serverName cfg) j) := by
  induction events generalizing w j with
  | nil => exact h
  | cons event events ih =>
      obtain ⟨w', hrun, hfollows⟩ : ∃ w',
          EStateM.run (event.op clock zone serverName cfg) w = .ok () w' ∧
            Follows cfg fn w' (j.step clock zone serverName cfg event) := by
        cases event with
        | write msg => exact h.writeByConfig clock zone serverName msg
        | restart => exact h.restart clock
      rw [Logger.runEvents, List.foldl_cons, after, hrun]
      exact ih hfollows

end Follows

theorem follows_started (cfg : LogArgs) (fn : String) :
    Follows cfg fn (started clock fn) (Journal.started clock) := by
  have habsent : fn ∉ (World.absent fn).files := Finmap.notMem_empty
  have hrun := run_initFile_absent clock (w := World.absent fn) habsent
  rw [started, after, hrun]
  exact ⟨rfl, rfl, rfl, fun _ => rfl, rfl, rfl, rfl⟩

end Runs

end Logger
end VermouthGateway
