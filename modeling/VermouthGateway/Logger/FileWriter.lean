import VermouthGateway.Go.Map
import VermouthGateway.Go.Time
import VermouthGateway.Logger.Message
import Mathlib.Algebra.GroupWithZero.Nat

/-!
# The file writer

`FileWriter` appends messages to a file and cuts it into archives: when the
calendar unit changes, when it has many lines, and when it is large.  An archive
is made by renaming the current file, and a new current file is opened.

The lock makes the calls of `writeByConfig` run one after the other, so a run is a
sequence of calls.  The file system is a healthy one: a call fails when the file it
needs is not there, or is closed.  A file is the list of the texts written to it.
`clock` gives the readings of `time.Now`, in nanoseconds, and `zone` the local time
of an instant.

* `World` is the state: the files, the renames so far, and the writer.
* `writeByConfig` is the code, with `sliceByDate`, `sliceByLine` and `sliceBySize`.
* `writeAll` is a run, and `FileEvent` adds restarts of the process.
-/

namespace VermouthGateway
namespace Logger

open Go

/-- The errors of the file system. -/
inductive OsError
  | notExist
  | closed
deriving DecidableEq, Repr

/-- What the file writer reads of `config.LogArgs`. -/
structure LogArgs where
  format : String
  maxSize : Int
  maxLine : Int
  dateSlice : String

structure FileWriter where
  /-- The file that is open for appending. -/
  writer : Option String
  startLine : Int
  startTime : Int
  fileName : String

/-- `NewFileWriter`. -/
def newFileWriter (fn : String) : FileWriter where
  writer := none
  startLine := 0
  startTime := 0
  fileName := fn

structure World where
  /-- The texts written to each file. -/
  files : GoMap String (List String)
  /-- The renames so far: the new name, and what was moved there. -/
  renamed : List (String × List String)
  /-- How often the clock was read. -/
  ticks : Nat
  fw : FileWriter

/-- No file, and a writer that is not open yet. -/
def World.absent (fn : String) : World where
  files := ∅
  renamed := []
  ticks := 0
  fw := newFileWriter fn

abbrev FileOp := EStateM OsError World

/-! ## The file system -/

/-- `utils.PathExists`. -/
def pathExists (path : String) : FileOp Bool := do
  return decide (path ∈ (← get).files)

/-- `utils.CreateFile`. -/
def createFile (path : String) : FileOp Unit :=
  modify fun w => { w with files := w.files.insert path [] }

/-- What a call needs of a file that must be there. -/
def contentOf (path : String) : FileOp (List String) := do
  match (← get).files.lookup path with
  | none => throw .notExist
  | some content => return content

/-- `os.Rename`: a file of the new name is replaced. -/
def rename (oldpath newpath : String) : FileOp Unit := do
  let content ← contentOf oldpath
  modify fun w => { w with
    files := (w.files.erase oldpath).insert newpath content
    renamed := w.renamed ++ [(newpath, content)] }

/-- The loop of `utils.GetFileLines`: one more for every line that is ended. -/
def countLines : Int → List Char → Int
  | fileLine, [] => fileLine
  | fileLine, c :: rest => countLines (if c = '\n' then fileLine + 1 else fileLine) rest

/-- `utils.GetFileLines`; an empty file has one line. -/
def getFileLines (path : String) : FileOp Int := do
  let content ← contentOf path
  return countLines 1 (content.flatMap String.toList)

/-- The size of a file in bytes. -/
def bytes (content : List String) : Nat := (content.map String.utf8ByteSize).sum

/-- `getFileSize`, in units of 1024 bytes. -/
def getFileSize (path : String) : FileOp Int := do
  let content ← contentOf path
  return (bytes content : Int) / 1024

/-- `getFileObject`: the file is opened for appending. -/
def getFileObject (path : String) : FileOp String := do
  let _ ← contentOf path
  return path

/-- `fw.writer.Close`. -/
def close : FileOp Unit := modify fun w => { w with fw := { w.fw with writer := none } }

/-- `fw.writer.Write`; `none` is the nil error. -/
def write (text : String) : FileOp (Option OsError) := fun w =>
  match w.fw.writer with
  | none => .ok (some .closed) w
  | some path =>
      match w.files.lookup path with
      -- the file has been removed: what is written is not seen any more
      | none => .ok none w
      | some content => .ok none { w with files := w.files.insert path (content ++ [text]) }

/-! ## What the calls return -/

section Results

variable (path : String) (w : World)

@[simp] theorem run_update (f : World → World) :
    EStateM.run (modify f : FileOp Unit) w = .ok () (f w) := rfl

@[simp] theorem run_when (c : Prop) [Decidable c] {α : Type} (x y : FileOp α) :
    EStateM.run (if c then x else y) w = if c then EStateM.run x w else EStateM.run y w := by
  split <;> rfl

@[simp] theorem run_pathExists :
    EStateM.run (pathExists path) w = .ok (decide (path ∈ w.files)) w := rfl

@[simp] theorem run_createFile :
    EStateM.run (createFile path) w = .ok () { w with files := w.files.insert path [] } := rfl

@[simp] theorem run_close :
    EStateM.run close w = .ok () { w with fw := { w.fw with writer := none } } := rfl

/-- A call on a file, when the file is there. -/
def onContent {α : Type} (f : List String → α) : EStateM.Result OsError World α :=
  match w.files.lookup path with
  | none => .error .notExist w
  | some content => .ok (f content) w

theorem run_contentOf : EStateM.run (contentOf path) w = onContent path w id := by
  rw [contentOf, EStateM.run_bind, EStateM.run_get, onContent]
  dsimp only
  cases w.files.lookup path <;> rfl

theorem run_contentOf_bind {α : Type} (f : List String → α) :
    EStateM.run (contentOf path >>= fun content => pure (f content)) w = onContent path w f := by
  rw [EStateM.run_bind, run_contentOf, onContent, onContent]
  cases w.files.lookup path <;> rfl

theorem run_getFileLines : EStateM.run (getFileLines path) w =
    onContent path w fun content => countLines 1 (content.flatMap String.toList) :=
  run_contentOf_bind path w _

theorem run_getFileSize : EStateM.run (getFileSize path) w =
    onContent path w fun content => (bytes content : Int) / 1024 :=
  run_contentOf_bind path w _

theorem run_getFileObject : EStateM.run (getFileObject path) w = onContent path w fun _ => path :=
  run_contentOf_bind path w _

theorem run_rename (newpath : String) : EStateM.run (rename path newpath) w =
    match w.files.lookup path with
    | none => .error .notExist w
    | some content => .ok () { w with
        files := (w.files.erase path).insert newpath content
        renamed := w.renamed ++ [(newpath, content)] } := by
  rw [rename, EStateM.run_bind, run_contentOf, onContent]
  cases w.files.lookup path <;> rfl

/-- A text is added at the end of the open file. -/
theorem run_write (text : String) {content : List String} (hwriter : w.fw.writer = some path)
    (hcontent : w.files.lookup path = some content) :
    EStateM.run (write text) w =
      .ok none { w with files := w.files.insert path (content ++ [text]) } := by
  rw [EStateM.run, write, hwriter]
  dsimp only
  rw [hcontent]

end Results

/-! ## The writer -/

section Writer

variable (clock : Nat → Int) (zone : Int → DateTime)

/-- `time.Now`. -/
def now : FileOp Int := fun w => .ok (clock w.ticks) { w with ticks := w.ticks + 1 }

@[simp] theorem run_now (w : World) :
    EStateM.run (now clock) w = .ok (clock w.ticks) { w with ticks := w.ticks + 1 } := rfl

/-- `initFile`. -/
def initFile : FileOp Unit := do
  let fileName := (← get).fw.fileName
  if !(← pathExists fileName) then createFile fileName
  let t ← now clock
  modify fun w => { w with fw := { w.fw with startTime := t / 10 ^ 9 } }
  let curLines ← getFileLines fileName
  modify fun w => { w with fw := { w.fw with startLine := curLines } }
  let file ← getFileObject fileName
  modify fun w => { w with fw := { w.fw with writer := some file } }

/-- An archive name: a mark and a time before the suffix of the file name. -/
def archiveName (fileName mark time : String) : String :=
  let suffix := ext fileName
  replace fileName suffix "" ++ mark ++ time ++ suffix

/-- The name under which `sliceByDate` archives, if it does. -/
def dateArchive (fileName dateSlice : String) (startTime nowTime : DateTime) : Option String :=
  let oldFileName := none
  let oldFileName :=
    if dateSlice = "y" ∧ startTime.year ≠ nowTime.year then
      some (archiveName fileName "_" (startTime.format "2006"))
    else oldFileName
  let oldFileName :=
    if dateSlice = "m" ∧ startTime.format "200601" ≠ nowTime.format "200601" then
      some (archiveName fileName "_" (startTime.format "200601"))
    else oldFileName
  let oldFileName :=
    if dateSlice = "d" ∧ startTime.format "20060102" ≠ nowTime.format "20060102" then
      some (archiveName fileName "_" (startTime.format "20060102"))
    else oldFileName
  -- the layout of the hour ends in the year, of which it prints the last two digits
  if dateSlice = "h" ∧ startTime.format "2006010206" ≠ nowTime.format "2006010206" then
    some (archiveName fileName "_" (startTime.format "2006010206"))
  else oldFileName

/-- `sliceByDate`. -/
def sliceByDate (dateSlice : String) : FileOp Unit := do
  let fw := (← get).fw
  let nowTime ← now clock
  match dateArchive fw.fileName dateSlice (zone (fw.startTime * 10 ^ 9)) (zone nowTime) with
  | none => pure ()
  | some oldFileName =>
      close
      rename fw.fileName oldFileName
      initFile clock

/-- `sliceByLine`. -/
def sliceByLine (maxLine : Int) : FileOp Unit := do
  let fw := (← get).fw
  if fw.startLine ≥ maxLine then
    close
    let t ← now clock
    let timeFlag := (zone t).format "2006-01-02-03.04.05.9999"
    rename fw.fileName (archiveName fw.fileName "." timeFlag)
    initFile clock

/-- `sliceBySize`. -/
def sliceBySize (maxSize : Int) : FileOp Unit := do
  let fw := (← get).fw
  let curSize ← getFileSize fw.fileName
  if curSize ≥ maxSize then
    close
    let t ← now clock
    let timeFlag := (zone t).format "2006-01-02-03.04.05"
    rename fw.fileName (archiveName fw.fileName "." timeFlag)
    initFile clock

/-- What `writeByConfig` writes of a message. -/
def messageLine (serverName format : String) (msg : Message) : String :=
  messageFormat serverName format msg ++ "\r\n"

variable (serverName : String) (cfg : LogArgs)

/-- `writeByConfig`. -/
def writeByConfig (msg : Message) : FileOp Unit := do
  if cfg.dateSlice ≠ "" then sliceByDate clock zone cfg.dateSlice
  if cfg.maxLine ≠ 0 then sliceByLine clock zone cfg.maxLine
  if cfg.maxSize ≠ 0 then sliceBySize clock zone cfg.maxSize
  let message := messageLine serverName cfg.format msg
  let err ← write message
  if cfg.maxLine ≠ 0 then
    modify fun w => { w with fw := { w.fw with
      startLine := w.fw.startLine + message.toList.count '\n' } }
  match err with
  | none => pure ()
  | some e => throw e

/-! ## Runs -/

/-- The state a call leaves behind, also when it fails. -/
def after (op : FileOp Unit) (w : World) : World :=
  match EStateM.run op w with
  | .ok _ w' => w'
  | .error _ w' => w'

/-- A sequence of calls: the texts of the messages whose call returned nil, and the
state in the end. -/
def writeAll : List Message → World → List String × World
  | [], w => ([], w)
  | msg :: msgs, w =>
      match EStateM.run (writeByConfig clock zone serverName cfg msg) w with
      | .ok _ w' =>
          (messageLine serverName cfg.format msg :: (writeAll msgs w').1, (writeAll msgs w').2)
      | .error _ w' => writeAll msgs w'

/-- A message is written, or the process starts anew with the file that is there. -/
inductive FileEvent
  | write (msg : Message)
  | restart

/-- The process starts with a new writer. -/
def reopen : FileOp Unit := do
  modify fun w => { w with fw := newFileWriter w.fw.fileName }
  initFile clock

def FileEvent.op : FileEvent → FileOp Unit
  | .write msg => writeByConfig clock zone serverName cfg msg
  | .restart => reopen clock

/-- A sequence of writes and restarts. -/
def runEvents (events : List FileEvent) (w : World) : World :=
  events.foldl (fun w event => after (event.op clock zone serverName cfg) w) w

/-- The writer of a file that was not there. -/
def started (fn : String) : World := after (initFile clock) (World.absent fn)

end Writer

end Logger
end VermouthGateway
