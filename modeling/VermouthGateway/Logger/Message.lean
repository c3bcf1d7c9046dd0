import VermouthGateway.Foundation.TemplateTraces

/-!
# The text of a log message

`messageFormat` writes a message in the format of its output.  It replaces the
eleven placeholders one after another, so each search also reads the values that
were put in before.

* `messageFormat` is the code, and `simultaneous` fills all placeholders at once.
* `messageFormat_verbatim_iff`: every character ends up where it belongs exactly
  when each search finds the placeholder of the format.
* `messageFormat_reads_body`: a body that names a placeholder is expanded.
-/

namespace VermouthGateway
namespace Logger

open Go Templates

/-- `LogLevel`; `TRACE` is 0 and `FATAL` is 5. -/
abbrev LogLevel := Int

/-- `message`. -/
structure Message where
  timestamp : Int
  timestampFormat : String
  millisecond : Int
  millisecondFormat : String
  level : LogLevel
  levelString : String
  body : String
  file : String
  line : Int
  function : String

/-- `messageFormat`; `serverName` is `viper.GetString("server.name")`. -/
def messageFormat (serverName format : String) (msg : Message) : String :=
  let message := replace format "%timestamp%" (toString msg.timestamp)
  let message := replace message "%timestamp_format%" msg.timestampFormat
  let message := replace message "%millisecond%" (toString msg.millisecond)
  let message := replace message "%millisecond_format%" msg.millisecondFormat
  let message := replace message "%level%" (toString msg.level)
  let message := replace message "%level_string%" msg.levelString
  let message := replace message "%file%" msg.file
  let message := replace message "%line%" (toString msg.line)
  let message := replace message "%function%" msg.function
  let message := replace message "%body%" msg.body
  replace message "%server_name%" serverName

def defaultLoggerMessageFormat : String := "[%level_string%] %timestamp_format% %body%"

/-! ## The placeholders -/

inductive Placeholder
  | timestamp
  | timestampFormat
  | millisecond
  | millisecondFormat
  | level
  | levelString
  | file
  | line
  | function
  | body
  | serverName
deriving DecidableEq, Repr

/-- The placeholders in the order in which they are replaced. -/
def placeholders : List Placeholder :=
  [.timestamp, .timestampFormat, .millisecond, .millisecondFormat, .level, .levelString, .file,
    .line, .function, .body, .serverName]

namespace Placeholder

def name : Placeholder → String
  | .timestamp => "timestamp"
  | .timestampFormat => "timestamp_format"
  | .millisecond => "millisecond"
  | .millisecondFormat => "millisecond_format"
  | .level => "level"
  | .levelString => "level_string"
  | .file => "file"
  | .line => "line"
  | .function => "function"
  | .body => "body"
  | .serverName => "server_name"

/-- What a placeholder stands for in a message. -/
def value (serverName : String) (msg : Message) : Placeholder → String
  | .timestamp => toString msg.timestamp
  | .timestampFormat => msg.timestampFormat
  | .millisecond => toString msg.millisecond
  | .millisecondFormat => msg.millisecondFormat
  | .level => toString msg.level
  | .levelString => msg.levelString
  | .file => msg.file
  | .line => toString msg.line
  | .function => msg.function
  | .body => msg.body
  | .serverName => serverName

theorem mem_placeholders (p : Placeholder) : p ∈ placeholders := by
  cases p <;> decide

end Placeholder

theorem nodup_placeholders : placeholders.Nodup := by decide

/-- The placeholders between percent signs. -/
def vocabulary : Vocabulary Placeholder Char where
  mark := '%'
  name p := p.name.toList
  mark_notMem p := by cases p <;> decide
  name_ne_nil p := by cases p <;> decide
  name_injective p q hsame := by
    have hall : ∀ p ∈ placeholders, ∀ q ∈ placeholders, p.name.toList = q.name.toList → p = q := by
      decide
    exact hall p p.mem_placeholders q q.mem_placeholders hsame

/-- The characters a placeholder stands for. -/
def valueChars (serverName : String) (msg : Message) (p : Placeholder) : List Char :=
  (p.value serverName msg).toList

/-- The format with all its placeholders filled at once. -/
def simultaneous (serverName format : String) (msg : Message) : String :=
  String.ofList (expand vocabulary (valueChars serverName msg) placeholders format.toList)

/-- No placeholder occurs twice in the format. -/
def PlaceholdersOnce (format : String) : Prop :=
  ∀ p ∈ placeholders, AtMostOnce (vocabulary.pattern p) format.toList

instance (format : String) : Decidable (PlaceholdersOnce format) :=
  inferInstanceAs (Decidable (∀ p ∈ placeholders, _))

/-- At its turn each placeholder is found first where the format has it, in the format
with the values of the earlier ones filled in, or nowhere when the format has it not. -/
def FindsOwn (serverName format : String) (msg : Message) : Prop :=
  Undisturbed vocabulary id (valueChars serverName msg) placeholders
    (parse vocabulary placeholders id 0 format.toList)

/-- The message reads as if all placeholders were filled at once, and every character
of it comes from where it would then. -/
structure Verbatim (serverName format : String) (msg : Message) : Prop where
  result : messageFormat serverName format msg = simultaneous serverName format msg
  origins : traceReplace vocabulary (valueChars serverName msg) placeholders format.toList =
    traceExpand vocabulary (valueChars serverName msg) placeholders format.toList

/-- The code replaces the placeholders in their order. -/
theorem messageFormat_eq (serverName format : String) (msg : Message) :
    messageFormat serverName format msg =
      String.ofList (replaceEach vocabulary id (valueChars serverName msg) placeholders
        format.toList) := by
  simp only [messageFormat, replace, String.toList_ofList, replaceEach, placeholders,
    List.foldl_cons, List.foldl_nil, replaceBy_id]
  rfl

/-- Logged content is left alone exactly when every search finds the format's own
placeholder. -/
theorem messageFormat_verbatim_iff (serverName format : String) (msg : Message)
    (honce : PlaceholdersOnce format) :
    Verbatim serverName format msg ↔ FindsOwn serverName format msg := by
  have htrace := @traceReplace_eq_iff Placeholder Char _ _ vocabulary placeholders
    (valueChars serverName msg) format.toList (fun p => honce p p.mem_placeholders)
    nodup_placeholders
  constructor
  · intro h
    exact htrace.mp h.origins
  · intro hfinds
    have horigins := htrace.mpr hfinds
    refine ⟨?_, horigins⟩
    rw [messageFormat_eq, replaceEach_eq_expand horigins, simultaneous]

/-- A message with a body and nothing else. -/
def plain (body : String) : Message where
  timestamp := 0
  timestampFormat := "1970-01-01 00:00:00"
  millisecond := 0
  millisecondFormat := "1970-01-01 00:00:00"
  level := 2
  levelString := "Info"
  body := body
  file := "main.go"
  line := 1
  function := "main.main"

/-- The format of an output that configures none. -/
theorem messageFormat_verbatim_default :
    PlaceholdersOnce defaultLoggerMessageFormat ∧
      (Verbatim "vermouth" defaultLoggerMessageFormat (plain "GET /%body%") ↔
        FindsOwn "vermouth" defaultLoggerMessageFormat (plain "GET /%body%")) := by
  have honce : PlaceholdersOnce defaultLoggerMessageFormat := by decide +kernel
  exact ⟨honce, messageFormat_verbatim_iff _ _ _ honce⟩

theorem messageFormat_body :
    messageFormat "vermouth" "%body%" (plain "%server_name%") = "vermouth" ∧
      simultaneous "vermouth" "%body%" (plain "%server_name%") = "%server_name%" := by
  decide +kernel

/-- The name of the server is written where the body asks for it. -/
theorem messageFormat_reads_body :
    ¬ ∀ serverName format msg, PlaceholdersOnce format → Verbatim serverName format msg := by
  intro hall
  have hverbatim := hall "vermouth" "%body%" (plain "%server_name%") (by decide +kernel)
  have hresult := hverbatim.result
  rw [messageFormat_body.1, messageFormat_body.2] at hresult
  exact absurd hresult (by decide)

end Logger
end VermouthGateway
