import VermouthGateway.Go.Text

/-!
# Validation of the configuration

The rules of a configuration are the `vaild` tags of its structs.  `checkArg`
walks the fields of a struct by reflection and hands each value with a tag to
`checkSingleTag`.  For a field that is itself a struct it calls itself on
`reflect.ValueOf(field)`, which is the descriptor of the field and not its value.

* `checkArg_eq_true_iff`: `checkArg` judges the fields of the struct itself.
* `checkArg_judges_iff`: so it is right about the nested structs exactly when
  they hold whenever the struct itself does.

Whether a path is valid is asked of the file system; `pathIsValid` stands for the
answer.
-/

namespace VermouthGateway
namespace Config

open Go

inductive ConfigError
  | unknownTag
  | illegalConfigFile
  | enumFieldsTooShort
  | cannotCatchAnyEnum
deriving DecidableEq, Repr

def ConfigError.message : ConfigError → String
  | .unknownTag => "field with unsupported tag"
  | .illegalConfigFile => "illegal config, please check toml file"
  | .enumFieldsTooShort => "enum fields too short"
  | .cannotCatchAnyEnum => "can not catch any enum field"

/-! ## Reflected values -/

/-- `reflect.StructTag`: its keys with their values. -/
abbrev StructTag := List (String × String)

namespace StructTag

/-- `Get`: the empty string for a missing key. -/
def get (tag : StructTag) (key : String) : String := (tag.lookup key).getD ""

/-- The text of the tag. -/
def text (tag : StructTag) : String :=
  " ".intercalate (tag.map fun entry => entry.1 ++ ":\"" ++ entry.2 ++ "\"")

end StructTag

/-- `reflect.StructField`. -/
structure StructField where
  name : String
  pkgPath : String := ""
  tag : StructTag := []

/-- `reflect.Value`, as far as `checkArg` tells values apart; `int` is any signed
integer. -/
inductive Value
  | string (val : String)
  | int (val : Int)
  | struct (fields : List (StructField × Value))
  | other

/-- The value has kind `reflect.Struct`. -/
def Value.isStruct : Value → Bool
  | .struct _ => true
  | _ => false

/-- A field of a struct: its descriptor and its value. -/
abbrev Field := StructField × Value

/-- The fields of `reflect.ValueOf(field)`. -/
def descriptor (field : StructField) : List Field :=
  [({ name := "Name" }, .string field.name),
    ({ name := "PkgPath" }, .string field.pkgPath),
    ({ name := "Type" }, .other),
    ({ name := "Tag" }, .string field.tag.text),
    ({ name := "Offset" }, .other),
    ({ name := "Index" }, .other),
    ({ name := "Anonymous" }, .other)]

/-- What is left to look at: a descriptor has seven fields, and none of them is
a struct. -/
def work (fields : List Field) : Nat :=
  8 * fields.countP (fun field => field.2.isStruct) + fields.length

theorem work_lt_cons (field : Field) (fields : List Field) :
    work fields < work (field :: fields) := by
  have hcount := (List.sublist_cons_self field fields).countP_le
    (p := fun field => field.2.isStruct)
  rw [work, work, List.length_cons]
  omega

theorem work_descriptor_lt (field : StructField) {val : Value} (fields : List Field)
    (hstruct : val.isStruct = true) : work (descriptor field) < work ((field, val) :: fields) := by
  have hcount : ((field, val) :: fields).countP (fun field => field.2.isStruct) =
      fields.countP (fun field => field.2.isStruct) + 1 := List.countP_cons_of_pos hstruct
  have hdescriptor : work (descriptor field) = 7 := rfl
  rw [hdescriptor, work, hcount]
  omega

/-! ## The checks -/

/-- `utils.ParseTag`. -/
def parseTag (tag : String) : List String := (split tag ',').map fun rule => trim rule ' '

/-- `checkInt`. -/
def checkInt (val : Int) (rule : String) : Except ConfigError Bool :=
  if rule = "required" then .ok (val ≠ 0) else .error .unknownTag

example : parseTag "required, enum:stand_cluster" = ["required", "enum:stand_cluster"] := by
  decide

section Checks

variable (pathIsValid : String → Bool)

/-- `checkString`. -/
def checkString (val rule : String) : Except ConfigError Bool :=
  if rule = "required" then .ok (val ≠ "")
  else if rule = "filePath" then .ok (pathIsValid val)
  else if contains rule "enum" then
    match split rule ':' with
    | _ :: enums :: _ =>
        if val ∈ split enums '_' then .ok true else .error .cannotCatchAnyEnum
    | _ => .error .enumFieldsTooShort
  else .error .unknownTag

/-- `checkSingleTag`: values of other kinds pass. -/
def checkSingleTag (val : Value) (rule : String) : Except ConfigError Bool :=
  match val with
  | .string val => checkString pathIsValid val rule
  | .int val => checkInt val rule
  | _ => .ok true

/-- The loop of `checkArg` over the rules of one field. -/
def checkRules (val : Value) : List String → Except ConfigError Bool
  | [] => .ok true
  | rule :: rules =>
      match checkSingleTag pathIsValid val rule with
      | .error e => .error e
      | .ok false => .ok false
      | .ok true => checkRules val rules

/-- `checkArg`, on the fields of its argument. -/
def checkArg : List Field → Except ConfigError Bool
  | [] => .ok true
  | (field, val) :: fields =>
      if val.isStruct then
        -- `reflect.ValueOf(field)`: the fields of the descriptor, not those of the value
        match checkArg (descriptor field) with
        | .error e => .error e
        | .ok false => .ok false
        | .ok true => checkArg fields
      else if field.tag.get "vaild" = "" then checkArg fields
      else
        match checkRules pathIsValid val (parseTag (field.tag.get "vaild")) with
        | .error e => .error e
        | .ok false => .ok false
        | .ok true => checkArg fields
termination_by fields => work fields
decreasing_by
  · next hstruct => exact work_descriptor_lt field fields hstruct
  all_goals exact work_lt_cons _ fields

end Checks

/-! ## What is checked -/

section Meaning

variable (pathIsValid : String → Bool)

/-- The value of the field satisfies each rule of its `vaild` tag, if it has one. -/
def Holds (field : Field) : Prop :=
  field.1.tag.get "vaild" ≠ "" →
    ∀ rule ∈ parseTag (field.1.tag.get "vaild"),
      checkSingleTag pathIsValid field.2 rule = .ok true

/-- The field is one of a struct or of a struct nested in it. -/
inductive Reaches : List Field → Field → Prop
  | here {fields : List Field} {field : Field} (hmem : field ∈ fields) : Reaches fields field
  | nested {fields inner : List Field} {outer : StructField} {field : Field}
      (hmem : (outer, .struct inner) ∈ fields) (hreaches : Reaches inner field) :
      Reaches fields field

/-- The rules on the fields of a struct hold. -/
def OwnRules (fields : List Field) : Prop := ∀ field ∈ fields, Holds pathIsValid field

/-- The rules of a struct and of all structs nested in it hold. -/
def AllRules (fields : List Field) : Prop := ∀ field, Reaches fields field → Holds pathIsValid field

/-- The rules of the structs nested in a struct hold. -/
def NestedRules (fields : List Field) : Prop :=
  ∀ outer inner, (outer, .struct inner) ∈ fields → AllRules pathIsValid inner

theorem checkRules_eq_true_iff (val : Value) (rules : List String) :
    checkRules pathIsValid val rules = .ok true ↔
      ∀ rule ∈ rules, checkSingleTag pathIsValid val rule = .ok true := by
  induction rules with
  | nil => simp [checkRules]
  | cons rule rules ih =>
      rw [checkRules, List.forall_mem_cons]
      cases hrule : checkSingleTag pathIsValid val rule with
      | error e => simp
      | ok passed =>
          cases passed with
          | false => simp
          | true => simp [ih]

/-- The tags of a value that is a struct are never looked at, and hold. -/
theorem holds_struct (field : StructField) {val : Value} (hstruct : val.isStruct = true) :
    Holds pathIsValid (field, val) := by
  intro _ rule _
  cases val with
  | struct fields => rfl
  | string val => cases hstruct
  | int val => cases hstruct
  | other => cases hstruct

/-- A descriptor has no rules. -/
theorem checkArg_descriptor (field : StructField) :
    checkArg pathIsValid (descriptor field) = .ok true := by
  simp [descriptor, checkArg, Value.isStruct, StructTag.get]

/-- `checkArg` passes a struct exactly when the rules on its own fields hold. -/
theorem checkArg_eq_true_iff (fields : List Field) :
    checkArg pathIsValid fields = .ok true ↔ OwnRules pathIsValid fields := by
  induction fields with
  | nil => simp [checkArg, OwnRules]
  | cons field fields ih =>
      obtain ⟨field, val⟩ := field
      rw [OwnRules, List.forall_mem_cons, ← OwnRules, ← ih, checkArg]
      by_cases hstruct : val.isStruct = true
      · rw [if_pos hstruct, checkArg_descriptor]
        exact (and_iff_right (holds_struct pathIsValid field hstruct)).symm
      · rw [if_neg hstruct]
        by_cases htag : field.tag.get "vaild" = ""
        · rw [if_pos htag]
          exact (and_iff_right fun hne => absurd htag hne).symm
        · rw [if_neg htag]
          have hholds : Holds pathIsValid (field, val) ↔
              checkRules pathIsValid val (parseTag (field.tag.get "vaild")) = .ok true := by
            rw [checkRules_eq_true_iff]
            exact ⟨fun h => h htag, fun h _ => h⟩
          rw [hholds]
          cases checkRules pathIsValid val (parseTag (field.tag.get "vaild")) with
          | error e => simp
          | ok passed => cases passed <;> simp

theorem allRules_iff (fields : List Field) :
    AllRules pathIsValid fields ↔
      OwnRules pathIsValid fields ∧ NestedRules pathIsValid fields := by
  constructor
  · intro h
    exact ⟨fun field hmem => h field (.here hmem),
      fun outer inner hmem field hreaches => h field (.nested hmem hreaches)⟩
  · rintro ⟨hown, hnested⟩ field hreaches
    cases hreaches with
    | here hmem => exact hown field hmem
    | nested hmem hinner => exact hnested _ _ hmem field hinner

end Meaning

/-! ## The configuration -/

structure ServerArgs where
  httpServer : Bool
  httpPort : Int
  rpcServer : Bool
  rpcPort : Int
  name : String
  mode : String
  rootLevel : String
  dataDir : String

structure RaftArgs where
  tcpAddress : String
  leader : Bool
  method : String
  leaderAddress : String
  snapshotInterval : Int
  snapshotThreshold : Int
  heartbeatTimeout : Int
  electionTimeout : Int

/-- The three slices are left out: `checkArg` sees nothing of them but their
kind. -/
structure VermouthConfig where
  server : ServerArgs
  raft : RaftArgs

/-- `NewVermouthConfig`. -/
def newVermouthConfig : VermouthConfig where
  server := ⟨false, 0, false, 0, "", "", "", ""⟩
  raft := ⟨"", false, "", "", 0, 0, 0, 0⟩

def ServerArgs.fields (args : ServerArgs) : List Field :=
  [({ name := "HttpServer" }, .other),
    ({ name := "HttpPort", tag := [("vaild", "required")] }, .int args.httpPort),
    ({ name := "RpcServer" }, .other),
    ({ name := "RpcPort", tag := [("vaild", "required")] }, .int args.rpcPort),
    ({ name := "Name", tag := [("vaild", "required")] }, .string args.name),
    ({ name := "Mode", tag := [("vaild", "required, enum:stand_cluster")] }, .string args.mode),
    ({ name := "RootLevel", tag := [("toml", "root_level")] }, .string args.rootLevel),
    ({ name := "DataDir", tag := [("vaild", "required, filePath")] }, .string args.dataDir)]

def RaftArgs.fields (args : RaftArgs) : List Field :=
  [({ name := "TcpAddress" }, .string args.tcpAddress),
    ({ name := "Leader" }, .other),
    ({ name := "Method", tag := [("enum", "http_rpc")] }, .string args.method),
    ({ name := "LeaderAddress" }, .string args.leaderAddress),
    ({ name := "SnapshotInterval" }, .int args.snapshotInterval),
    ({ name := "SnapshotThreshold" }, .int args.snapshotThreshold),
    ({ name := "HeartbeatTimeout" }, .int args.heartbeatTimeout),
    ({ name := "ElectionTimeout" }, .int args.electionTimeout)]

def VermouthConfig.fields (c : VermouthConfig) : List Field :=
  [({ name := "Server" }, .struct c.server.fields),
    ({ name := "HttpProxy" }, .other),
    ({ name := "Discovery" }, .other),
    ({ name := "Raft" }, .struct c.raft.fields),
    ({ name := "Log" }, .other)]

section Validity

variable (pathIsValid : String → Bool)

/-- `VaildConfig`. -/
def vaildConfig (c : VermouthConfig) : Option ConfigError :=
  match checkArg pathIsValid c.fields with
  | .error e => some e
  | .ok false => some .illegalConfigFile
  | .ok true => none

/-- No field of the configuration itself has a rule. -/
theorem ownRules_config (c : VermouthConfig) : OwnRules pathIsValid c.fields := by
  intro field hmem htag
  simp only [VermouthConfig.fields, List.mem_cons, List.not_mem_nil, or_false] at hmem
  rcases hmem with rfl | rfl | rfl | rfl | rfl <;> exact absurd rfl htag

/-- So every configuration passes. -/
theorem vaildConfig_eq_none (c : VermouthConfig) : vaildConfig pathIsValid c = none := by
  rw [vaildConfig, (checkArg_eq_true_iff pathIsValid c.fields).mpr (ownRules_config pathIsValid c)]

/-- `checkArg` judges a struct with all that is nested in it exactly when its
own rules imply the nested ones; `VaildConfig` judges the rules of the server
exactly when they hold. -/
theorem checkArg_judges_iff :
    (∀ fields : List Field,
      (checkArg pathIsValid fields = .ok true ↔ AllRules pathIsValid fields) ↔
        (OwnRules pathIsValid fields → NestedRules pathIsValid fields)) ∧
    ∀ c : VermouthConfig,
      (vaildConfig pathIsValid c = none → OwnRules pathIsValid c.server.fields) ↔
        OwnRules pathIsValid c.server.fields := by
  refine ⟨fun fields => ?_, fun c => ?_⟩
  · rw [checkArg_eq_true_iff, allRules_iff]
    exact ⟨fun h hown => (h.mp hown).2, fun h => ⟨fun hown => ⟨hown, h hown⟩, fun hall => hall.1⟩⟩
  · exact ⟨fun h => h (vaildConfig_eq_none pathIsValid c), fun h _ => h⟩

end Validity

/-- The empty configuration passes, although its server has no port. -/
theorem empty_config_passes :
    vaildConfig (fun _ => true) newVermouthConfig = none ∧
      ¬ OwnRules (fun _ => true) newVermouthConfig.server.fields ∧
      ¬ (checkArg (fun _ => true) newVermouthConfig.fields = .ok true ↔
        AllRules (fun _ => true) newVermouthConfig.fields) := by
  have hport : ¬ OwnRules (fun _ => true) newVermouthConfig.server.fields := by
    intro hown
    have hrequired := hown ({ name := "HttpPort", tag := [("vaild", "required")] }, .int 0)
      (List.mem_cons_of_mem _ List.mem_cons_self) (by decide) "required" (by decide)
    exact absurd hrequired (by decide)
  refine ⟨vaildConfig_eq_none _ _, hport, fun hiff => hport ?_⟩
  intro field hmem
  have hpasses := (checkArg_eq_true_iff (fun _ => true) _).mpr
    (ownRules_config _ newVermouthConfig)
  exact hiff.mp hpasses field (.nested List.mem_cons_self (.here hmem))

end Config
end VermouthGateway
