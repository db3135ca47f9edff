import DronesmithEngine.MavlinkX25
import DronesmithEngine.MessageRoundTrips

/-!
# The stages of the generator

`GenerateGo` of `mavlink/generator/generator.go`.  Its stages write to one
buffer and change the dialect as they go: `generateClasses` sets the types of
the fields and sorts them, and `generateMsgIds` computes the checksums over
the fields as they are by then.  The characters of a text are the bytes of the
string.
-/

namespace DronesmithEngine.Generator

open ByteLayout Mavlink

/-! ## Dialects -/

structure EnumEntry where
  Value : UInt16
  Name : Text

structure Enum where
  Name : Text
  Entries : List EnumEntry

structure DialectMessage extends Message where
  ID : UInt8
  Name : Text

structure Dialect where
  Name : Text
  Enums : List Enum
  Messages : List DialectMessage

/-! ## Checksums -/

def textBytes (s : Text) : List UInt8 := s.map fun c => c.toNat.toUInt8

/-- The type name for crc extra purposes does not include the array
portion. -/
def MessageField.crcType (f : MessageField) : Text :=
  let cType :=
    if f.CType = "uint8_t_mavlink_version".toList then "uint8_t".toList
    else f.CType
  cType.takeWhile (· ≠ '[')

def MessageField.writeCRC (crc : UInt16) (f : MessageField) : UInt16 :=
  let crc := X25.Write crc
    (textBytes (f.crcType ++ ' ' :: (f.Name ++ [' '])))
  if 0 < f.ArrayLen then X25.WriteByte crc f.ArrayLen.toNat.toUInt8 else crc

def DialectMessage.CRCExtra (m : DialectMessage) : UInt8 :=
  let hash := X25.Write X25.New (textBytes (m.Name ++ [' ']))
  let crc := m.Fields.foldl MessageField.writeCRC hash
  ((crc &&& (0xff : UInt16)) ^^^ (crc >>> (8 : UInt16))).toUInt8

/-- `HEARTBEAT` of the common dialect, in the order of the payload. -/
example :
    (DialectMessage.mk
      ⟨[("uint32_t", "custom_mode"), ("uint8_t", "type"),
        ("uint8_t", "autopilot"), ("uint8_t", "base_mode"),
        ("uint8_t", "system_status"),
        ("uint8_t_mavlink_version", "mavlink_version")].map
          fun (ctype, name) => ⟨ctype.toList, name.toList, [], 0, 0, 0⟩⟩
      0 "HEARTBEAT".toList).CRCExtra = 50 := by
  decide +kernel

/-! ## What is written -/

/-- The declarations of a message: its type with `MsgID`, `MsgName`, `Pack`
and `Unpack`. -/
structure DialectClass extends MessageClass where
  ID : UInt8
  Name : Text

inductive GoDecl
  | enum (e : Enum)
  | messageClass (c : DialectClass)
  | msgIds (ids : List (Text × UInt8))
  | dialect (name : Text) (crcExtras : List (UInt8 × UInt8))

/-- An error that the generator returns; the other failures are panics. -/
def GeneratorFailure.IsError : GeneratorFailure → Prop
  | .atoi _ => True
  | .unknownSize => True
  | _ => False

instance : ∀ e : GeneratorFailure, Decidable e.IsError
  | .atoi _ => .isTrue trivial
  | .unknownSize => .isTrue trivial
  | .unhandledPrimitive _ => .isFalse id
  | .sliceBounds => .isFalse id
  | .unhandledBitsize => .isFalse id

/-- What a stage leaves, and the error it returns or panics with. -/
structure Stage where
  err : Option GeneratorFailure
  dialect : Dialect
  written : List GoDecl

/-- A loop that changes its elements and returns at the first failure. -/
def untilFailure {α ε : Type} (change : α → Option ε × α) :
    List α → Option ε × List α
  | [] => (none, [])
  | x :: xs =>
      match change x with
      | (some e, x) => (some e, x :: xs)
      | (none, x) =>
          let (err, xs) := untilFailure change xs
          (err, x :: xs)

/-! ## Stages -/

/-- Fills in missing enum values. -/
def Enum.fill (e : Enum) : Enum where
  Name := UpperCamelCase e.Name
  Entries := e.Entries.mapIdx fun i ee =>
    if ee.Value = 0 then { ee with Value := i.toUInt16 } else ee

def Dialect.generateEnums (d : Dialect) : Stage :=
  let enums := d.Enums.map Enum.fill
  ⟨none, { d with Enums := enums }, enums.map .enum⟩

def MessageField.setType (f : MessageField) :
    Option GeneratorFailure × MessageField :=
  match f.typed with
  | .ok f => (none, f)
  | .error e => (some e, f)

/-- The body of the loop.  A field that fails leaves those before it typed,
and the message unsorted. -/
def DialectMessage.layOut (m : DialectMessage) :
    Option GeneratorFailure × DialectMessage :=
  match untilFailure MessageField.setType m.Fields with
  | (some e, fields) => (some e, { m with Fields := fields })
  | (none, fields) =>
      (none, { m with Fields := setOffsets 0 (Message.sorted ⟨fields⟩) })

def DialectMessage.emitClass (m : DialectMessage) :
    Generated DialectClass := do
  let c ← m.toMessage.emit
  pure { c with ID := m.ID, Name := UpperCamelCase m.Name }

def Dialect.generateClasses (d : Dialect) : Stage :=
  match untilFailure DialectMessage.layOut d.Messages with
  | (some e, messages) => ⟨some e, { d with Messages := messages }, []⟩
  | (none, messages) =>
      let d := { d with Messages := messages }
      match messages.mapM DialectMessage.emitClass with
      | .error e => ⟨some e, d, []⟩
      | .ok classes => ⟨none, d, classes.map .messageClass⟩

def Dialect.generateMsgIds (d : Dialect) : Stage :=
  ⟨none, d,
    [.msgIds (d.Messages.map fun m => (m.Name, m.ID)),
      .dialect (UpperCamelCase d.Name)
        (d.Messages.map fun m => (m.ID, m.CRCExtra))]⟩

/-! ## `GenerateGo` -/

inductive GenerateError
  | stage (e : GeneratorFailure)
  | format (err : String)
  | write (err : String)
  | shortWrite

/-- What `w.Write` answers. -/
inductive WriteOutcome
  | complete
  | short
  | failed (err : String)

/-- A panic goes through; an error does not. -/
def Stage.run (s : Stage) : Generated (Dialect × List GoDecl) :=
  match s.err with
  | some e => if e.IsError then .ok (s.dialect, s.written) else .error e
  | none => .ok (s.dialect, s.written)

section

variable (formatErr : List GoDecl → Option String) (outcome : WriteOutcome)

/-- `format.Source` fails or keeps the declarations. -/
def writeFormatted (source : List GoDecl) :
    Except GenerateError (List GoDecl) :=
  match formatErr source with
  | some err => .error (.format err)
  | none =>
      match outcome with
      | .complete => .ok source
      | .short => .error .shortWrite
      | .failed err => .error (.write err)

/-- The output, if it returns nil.  The error of the first stage is
overwritten, those of the others are dropped. -/
def Dialect.GenerateGo (d : Dialect) :
    Generated (Except GenerateError (List GoDecl)) := do
  let (d, enums) ← d.generateEnums.run
  let (d, classes) ← d.generateClasses.run
  let (_, msgIds) ← d.generateMsgIds.run
  pure (writeFormatted formatErr outcome (enums ++ classes ++ msgIds))

end

/-! ## Loops that fail -/

section

variable {α ε : Type} {change : α → Option ε × α} {xs : List α}

theorem untilFailure_fst :
    (untilFailure change xs).1 = xs.findSome? fun x => (change x).1 := by
  induction xs with
  | nil => rfl
  | cons x xs ih =>
      rw [untilFailure, List.findSome?_cons]
      rcases change x with ⟨err | e, y⟩
      · exact ih
      · rfl

theorem untilFailure_snd (hnone : (untilFailure change xs).1 = none) :
    (untilFailure change xs).2 = xs.map fun x => (change x).2 := by
  induction xs with
  | nil => rfl
  | cons x xs ih =>
      rw [untilFailure] at hnone ⊢
      rw [List.map_cons]
      rcases hx : change x with ⟨err | e, y⟩
      · rw [hx] at hnone
        exact congrArg (y :: ·) (ih hnone)
      · rw [hx] at hnone
        cases hnone

end

/-! ## Which stage fails -/

/-- What `GoTypeInfo` fails with. -/
def MessageField.typeFailure (f : MessageField) : Option GeneratorFailure :=
  match GoTypeInfo f.CType with
  | .ok _ => none
  | .error e => some e

/-- The first failure in the order of the messages and their fields. -/
def Dialect.typeFailure (d : Dialect) : Option GeneratorFailure :=
  d.Messages.findSome? fun m => m.Fields.findSome? MessageField.typeFailure

theorem setType_fst (f : MessageField) : f.setType.1 = f.typeFailure := by
  rw [MessageField.setType, MessageField.typeFailure, MessageField.typed]
  cases GoTypeInfo f.CType with
  | error e => rfl
  | ok info => rfl

theorem typed_of_setType {f : MessageField} (hnone : f.setType.1 = none) :
    f.typed = .ok f.setType.2 := by
  rw [MessageField.setType] at hnone ⊢
  cases htyped : f.typed with
  | error e =>
      rw [htyped] at hnone
      cases hnone
  | ok g => rfl

namespace DialectMessage

variable {m : DialectMessage}

theorem layOut_fst (m : DialectMessage) :
    m.layOut.1 = m.Fields.findSome? MessageField.typeFailure := by
  have hloop : (untilFailure MessageField.setType m.Fields).1 =
      m.Fields.findSome? fun f => f.setType.1 := untilFailure_fst
  simp only [setType_fst] at hloop
  rw [layOut, ← hloop]
  rcases untilFailure MessageField.setType m.Fields with ⟨err | e, fields⟩
  · rfl
  · rfl

/-- A message that is laid out is processed. -/
theorem process_of_layOut (hnone : m.layOut.1 = none) :
    m.toMessage.process = .ok m.layOut.2.toMessage := by
  have hfields : (untilFailure MessageField.setType m.Fields).1 = none := by
    rw [untilFailure_fst]
    simp only [setType_fst]
    rw [← layOut_fst, hnone]
  have htyped : m.Fields.mapM MessageField.typed =
      .ok (untilFailure MessageField.setType m.Fields).2 := by
    rw [untilFailure_snd hfields, mapM_eq_ok_iff, List.forall₂_map_right_iff,
      List.forall₂_same]
    intro f hf
    rw [untilFailure_fst, List.findSome?_eq_none_iff] at hfields
    exact typed_of_setType (hfields f hf)
  rw [Message.process, htyped, layOut]
  rcases hloop : untilFailure MessageField.setType m.Fields with
    ⟨err | e, fields⟩
  · rfl
  · rw [hloop] at hfields
    cases hfields

theorem layOut_keeps (m : DialectMessage) :
    m.layOut.2.ID = m.ID ∧ m.layOut.2.Name = m.Name := by
  rw [layOut]
  split
  · exact ⟨rfl, rfl⟩
  · exact ⟨rfl, rfl⟩

end DialectMessage

/-! ## Failures of the template -/

/-- The computation fails, if at all, with a panic of the template. -/
def TemplateOnly {α : Type} (x : Generated α) : Prop :=
  ∀ e, x = .error e → e = .unhandledBitsize

namespace TemplateOnly

variable {α β : Type}

theorem ok (a : α) : TemplateOnly (.ok a) := by
  intro e herror
  cases herror

theorem panic : TemplateOnly (.error .unhandledBitsize : Generated α) := by
  intro e herror
  cases herror
  rfl

theorem ite {p : Prop} [Decidable p] {x y : Generated α}
    (hx : TemplateOnly x) (hy : TemplateOnly y) :
    TemplateOnly (if p then x else y) := by
  split
  · exact hx
  · exact hy

theorem bind {x : Generated α} {f : α → Generated β} (hx : TemplateOnly x)
    (hf : ∀ a, TemplateOnly (f a)) : TemplateOnly (x >>= f) := by
  cases x with
  | ok a => exact hf a
  | error e =>
      intro e' herror
      cases herror
      exact hx e rfl

theorem map {x : Generated α} (g : α → β) (hx : TemplateOnly x) :
    TemplateOnly (g <$> x) := by
  rw [map_eq_pure_bind]
  exact hx.bind fun a => ok (g a)

theorem mapM {f : α → Generated β} (hf : ∀ a, TemplateOnly (f a))
    (xs : List α) : TemplateOnly (xs.mapM f) := by
  induction xs with
  | nil => exact ok []
  | cons x xs ih =>
      rw [List.mapM_cons]
      exact (hf x).bind fun y => ih.bind fun ys => ok (y :: ys)

end TemplateOnly

theorem PayloadPackSequence_templateOnly (f : MessageField) :
    TemplateOnly f.PayloadPackSequence := by
  have hprimitive : ∀ offset name,
      TemplateOnly (f.payloadPackPrimitive offset name) := fun _ _ =>
    .ite (.ok _) (.ite (.ite (.ok _) .panic) (.ite (.ok _) .panic))
  exact .ite (.ite (.ok _) ((hprimitive _ _).map _)) (hprimitive _ _)

theorem PayloadUnpackSequence_templateOnly (f : MessageField) :
    TemplateOnly f.PayloadUnpackSequence := by
  have hprimitive : ∀ offset,
      TemplateOnly (f.payloadUnpackPrimitive offset) := fun _ =>
    .ite (.ok _) (.ite (.ite (.ok _) .panic) (.ite (.ok _) .panic))
  exact .ite (.ite (.ok _) ((hprimitive _).map _)) ((hprimitive _).map _)

/-- The template panics or writes the class. -/
theorem emit_templateOnly (m : Message) : TemplateOnly m.emit :=
  (TemplateOnly.mapM PayloadPackSequence_templateOnly _).bind fun _ =>
    (TemplateOnly.mapM PayloadUnpackSequence_templateOnly _).bind fun _ =>
      .ok _

theorem emitClass_templateOnly (m : DialectMessage) :
    TemplateOnly m.emitClass :=
  (emit_templateOnly m.toMessage).bind fun _ => .ok _

theorem emitClass_eq {m : DialectMessage} {c : DialectClass}
    (hemit : m.emitClass = .ok c) :
    m.toMessage.emit = .ok c.toMessageClass ∧ c.ID = m.ID ∧
      c.Name = UpperCamelCase m.Name := by
  rw [DialectMessage.emitClass] at hemit
  cases hbody : m.toMessage.emit with
  | error e =>
      rw [hbody] at hemit
      cases hemit
  | ok body =>
      rw [hbody] at hemit
      cases hemit
      exact ⟨rfl, rfl, rfl⟩

/-! ## What `generateClasses` leaves -/

section

variable {d : Dialect}

theorem layOuts_fst (d : Dialect) :
    (untilFailure DialectMessage.layOut d.Messages).1 = d.typeFailure := by
  rw [untilFailure_fst]
  simp only [DialectMessage.layOut_fst]
  rfl

theorem generateClasses_of_failure {e : GeneratorFailure}
    (hfailure : d.typeFailure = some e) :
    d.generateClasses.err = some e ∧ d.generateClasses.written = [] := by
  rw [← layOuts_fst] at hfailure
  rw [Dialect.generateClasses]
  rcases hloop : untilFailure DialectMessage.layOut d.Messages with
    ⟨err | e', messages⟩
  · rw [hloop] at hfailure
    cases hfailure
  · rw [hloop] at hfailure
    exact ⟨hfailure, rfl⟩

/-- With all types known, every message is laid out, and its class is
written unless the template panics. -/
theorem generateClasses_of_typed (htyped : d.typeFailure = none) :
    d.generateClasses.err = some .unhandledBitsize ∨
      ∃ classes,
        (d.Messages.map fun m => m.layOut.2).mapM DialectMessage.emitClass =
          .ok classes ∧
        d.generateClasses =
          ⟨none, { d with Messages := d.Messages.map fun m => m.layOut.2 },
            classes.map .messageClass⟩ := by
  rw [← layOuts_fst] at htyped
  have hmessages := untilFailure_snd htyped
  rw [Dialect.generateClasses, ← hmessages]
  rcases hloop : untilFailure DialectMessage.layOut d.Messages with
    ⟨err | e, messages⟩
  · cases hemit : messages.mapM DialectMessage.emitClass with
    | error e =>
        cases TemplateOnly.mapM emitClass_templateOnly messages e hemit
        exact Or.inl (by simp only [hemit])
    | ok classes =>
        exact Or.inr ⟨classes, rfl, by simp only [hemit]⟩
  · rw [hloop] at htyped
    cases htyped

end

/-- Where the stage does not fail, it writes the classes of
`Generator.generateClasses`. -/
theorem generateClasses_of_none {d : Dialect}
    (hnone : d.generateClasses.err = none) :
    ∃ classes : List DialectClass,
      d.generateClasses.written = classes.map .messageClass ∧
      generateClasses (d.Messages.map DialectMessage.toMessage) =
        .ok (classes.map DialectClass.toMessageClass) := by
  have htyped : d.typeFailure = none := by
    cases hfailure : d.typeFailure with
    | none => rfl
    | some e =>
        rw [(generateClasses_of_failure hfailure).1] at hnone
        cases hnone
  rcases generateClasses_of_typed htyped with hpanic | ⟨classes, hemit, hstage⟩
  · rw [hpanic] at hnone
    cases hnone
  · refine ⟨classes, by rw [hstage], ?_⟩
    have hprocess : (d.Messages.map DialectMessage.toMessage).mapM
        Message.process =
          .ok (d.Messages.map fun m => m.layOut.2.toMessage) := by
      rw [mapM_eq_ok_iff, List.forall₂_map_left_iff,
        List.forall₂_map_right_iff, List.forall₂_same]
      intro m hm
      apply DialectMessage.process_of_layOut
      rw [DialectMessage.layOut_fst]
      exact List.findSome?_eq_none_iff.mp htyped m hm
    have hbodies : (d.Messages.map fun m => m.layOut.2.toMessage).mapM
        Message.emit = .ok (classes.map DialectClass.toMessageClass) := by
      rw [mapM_eq_ok_iff, List.forall₂_map_left_iff] at hemit ⊢
      rw [List.forall₂_map_right_iff]
      exact hemit.imp fun m c hm => (emitClass_eq hm).1
    simp only [generateClasses, hprocess, bind, Except.bind, hbodies]

/-! ## The errors of the stages -/

section

variable {formatErr : List GoDecl → Option String} {outcome : WriteOutcome}
  {d d' : Dialect}

/-- The dialect that `generateClasses` gets. -/
def Dialect.filled (d : Dialect) : Dialect := d.generateEnums.dialect

theorem filled_typeFailure (d : Dialect) :
    d.filled.typeFailure = d.typeFailure := rfl

theorem GenerateGo_of_run {classes : List GoDecl}
    (hrun : d.filled.generateClasses.run = .ok (d', classes)) :
    d.GenerateGo formatErr outcome =
      .ok (writeFormatted formatErr outcome
        (d.generateEnums.written ++ classes ++
          d'.generateMsgIds.written)) := by
  have henums : d.generateEnums.run =
      .ok (d.filled, d.generateEnums.written) := rfl
  have hids : d'.generateMsgIds.run =
      .ok (d', d'.generateMsgIds.written) := rfl
  simp only [Dialect.GenerateGo, henums, bind, Except.bind, hrun, hids]
  rfl

theorem GenerateGo_of_panic {e : GeneratorFailure}
    (hrun : d.filled.generateClasses.run = .error e) :
    d.GenerateGo formatErr outcome = .error e := by
  have henums : d.generateEnums.run =
      .ok (d.filled, d.generateEnums.written) := rfl
  simp only [Dialect.GenerateGo, henums, bind, Except.bind, hrun]

theorem writeFormatted_eq_ok {source output : List GoDecl}
    (hok : writeFormatted formatErr outcome source = .ok output) :
    output = source := by
  unfold writeFormatted at hok
  split at hok
  · cases hok
  · split at hok
    · cases hok
      rfl
    · cases hok
    · cases hok

/-- No error of a stage is returned. -/
theorem writeFormatted_ne_stage {source : List GoDecl}
    {e : GeneratorFailure} :
    writeFormatted formatErr outcome source ≠ .error (.stage e) := by
  unfold writeFormatted
  split
  · nofun
  · split
    · nofun
    · nofun
    · nofun

/-- An error of `generateClasses` is dropped, and no class is written. -/
theorem GenerateGo_of_failure {e : GeneratorFailure}
    (hfailure : d.typeFailure = some e) (herror : e.IsError) :
    ∃ d' : Dialect, d.GenerateGo formatErr outcome =
      .ok (writeFormatted formatErr outcome
        (d.generateEnums.written ++ d'.generateMsgIds.written)) := by
  obtain ⟨herr, hwritten⟩ :=
    generateClasses_of_failure ((filled_typeFailure d).trans hfailure)
  have hrun : d.filled.generateClasses.run =
      .ok (d.filled.generateClasses.dialect, []) := by
    rw [Stage.run, herr, hwritten]
    exact if_pos herror
  refine ⟨d.filled.generateClasses.dialect, ?_⟩
  rw [GenerateGo_of_run hrun, List.append_nil]

end

/-! ## What the generator should do -/

/-- The class of a message, with the payload laid out over its fields sorted
by size, and the crc extra over the same list. -/
structure DialectMessage.Emitted (m : DialectMessage) (c : DialectClass)
    (crc : UInt8) : Prop where
  id : c.ID = m.ID
  name : c.Name = UpperCamelCase m.Name
  laidOut : ∃ typed sorted : List MessageField,
    List.Forall₂ (fun f g => f.typed = .ok g) m.Fields typed ∧
      sorted.Perm typed ∧
      sorted.Pairwise (fun f g => g.BitSize ≤ f.BitSize) ∧
      c.message.Fields = setOffsets 0 sorted ∧
      crc = DialectMessage.CRCExtra { m with Fields := sorted }
  pack : List.Forall₂ (fun f stmt => f.PayloadPackSequence = .ok stmt)
    c.message.Fields c.pack
  unpack : List.Forall₂ (fun f stmt => f.PayloadUnpackSequence = .ok stmt)
    c.message.Fields c.unpack

/-- The errors that the stages return. -/
def Dialect.stageErrors (d : Dialect) : List GeneratorFailure :=
  [d.generateEnums, d.filled.generateClasses,
    d.filled.generateClasses.dialect.generateMsgIds].filterMap fun s =>
      s.err.filter fun e => e.IsError

/-- Where it returns nil, the output has the class and the crc extra of every
message; and it returns the error of a stage. -/
structure Dialect.GeneratesAll (formatErr : List GoDecl → Option String)
    (outcome : WriteOutcome) (d : Dialect) : Prop where
  complete : ∀ output, d.GenerateGo formatErr outcome = .ok (.ok output) →
    ∃ emitted : List (DialectClass × UInt8),
      List.Forall₂ (fun m e => DialectMessage.Emitted m e.1 e.2) d.Messages
        emitted ∧
      (∀ e ∈ emitted, .messageClass e.1 ∈ output) ∧
      .dialect (UpperCamelCase d.Name)
        (emitted.map fun e => (e.1.ID, e.2)) ∈ output
  returned : ∀ e ∈ d.stageErrors,
    d.GenerateGo formatErr outcome = .ok (.error (.stage e))

theorem CRCExtra_setOffsets (m : DialectMessage) (fields : List MessageField) :
    DialectMessage.CRCExtra { m with Fields := setOffsets 0 fields } =
      DialectMessage.CRCExtra { m with Fields := fields } := by
  have hfold : ∀ offset crc,
      (setOffsets offset fields).foldl MessageField.writeCRC crc =
        fields.foldl MessageField.writeCRC crc := by
    induction fields with
    | nil =>
        intro offset crc
        rfl
    | cons f fields ih =>
        intro offset crc
        rw [setOffsets, List.foldl_cons, List.foldl_cons, ih]
        rfl
  simp only [DialectMessage.CRCExtra, hfold]

theorem emitted_of_emitClass {m : DialectMessage} {c : DialectClass}
    (hnone : m.layOut.1 = none) (hemit : m.layOut.2.emitClass = .ok c) :
    m.Emitted c m.layOut.2.CRCExtra := by
  obtain ⟨hid, hname⟩ := m.layOut_keeps
  obtain ⟨hbody, hcid, hcname⟩ := emitClass_eq hemit
  obtain ⟨typed, htyped, hfields⟩ :=
    process_eq (DialectMessage.process_of_layOut hnone)
  obtain ⟨hmessage, hpack, hunpack⟩ := emit_eq hbody
  have hlaid : c.message.Fields = setOffsets 0 (Message.sorted ⟨typed⟩) := by
    rw [hmessage, hfields]
  refine ⟨hcid.trans hid, hcname.trans (congrArg UpperCamelCase hname),
    ⟨typed, Message.sorted ⟨typed⟩, htyped, List.mergeSort_perm _ _,
      pairwise_sorted ⟨typed⟩, hlaid, ?_⟩, ?_, ?_⟩
  · have hcrc := CRCExtra_setOffsets m (Message.sorted ⟨typed⟩)
    rw [← hcrc, ← hfields]
    simp only [DialectMessage.CRCExtra, hname]
  · rw [hmessage]
    exact hpack
  · rw [hmessage]
    exact hunpack

/-- The classes and the checksums are written in the order of the
messages. -/
theorem emitted_of_classes {messages : List DialectMessage}
    {classes : List DialectClass}
    (hnone : ∀ m ∈ messages, m.layOut.1 = none)
    (hemit : List.Forall₂ (fun m c => m.layOut.2.emitClass = .ok c) messages
      classes) :
    ∃ emitted : List (DialectClass × UInt8),
      List.Forall₂ (fun m e => DialectMessage.Emitted m e.1 e.2) messages
        emitted ∧
      emitted.map Prod.fst = classes ∧
      emitted.map (fun e => (e.1.ID, e.2)) =
        messages.map fun m => (m.layOut.2.ID, m.layOut.2.CRCExtra) := by
  induction hemit with
  | nil => exact ⟨[], .nil, rfl, rfl⟩
  | @cons m c messages classes hm _ ih =>
      rw [List.forall_mem_cons] at hnone
      obtain ⟨emitted, hall, hclasses, hcrcs⟩ := ih hnone.2
      have hc := emitted_of_emitClass hnone.1 hm
      have hid : c.ID = m.layOut.2.ID := (emitClass_eq hm).2.1
      refine ⟨(c, m.layOut.2.CRCExtra) :: emitted, .cons hc hall, ?_, ?_⟩
      · rw [List.map_cons, hclasses]
      · rw [List.map_cons, List.map_cons, hcrcs, hid]

section

variable {formatErr : List GoDecl → Option String} {outcome : WriteOutcome}
  {d : Dialect}

/-- With all types known the checksums are computed after the sorting. -/
theorem complete_of_typed (htyped : d.typeFailure = none)
    {output : List GoDecl}
    (hok : d.GenerateGo formatErr outcome = .ok (.ok output)) :
    ∃ emitted : List (DialectClass × UInt8),
      List.Forall₂ (fun m e => DialectMessage.Emitted m e.1 e.2) d.Messages
        emitted ∧
      (∀ e ∈ emitted, .messageClass e.1 ∈ output) ∧
      .dialect (UpperCamelCase d.Name)
        (emitted.map fun e => (e.1.ID, e.2)) ∈ output := by
  rcases generateClasses_of_typed ((filled_typeFailure d).trans htyped) with
    hpanic | ⟨classes, hemit, hstage⟩
  · have hrun : d.filled.generateClasses.run =
        .error .unhandledBitsize := by
      rw [Stage.run, hpanic]
      rfl
    rw [GenerateGo_of_panic hrun] at hok
    cases hok
  · have hrun : d.filled.generateClasses.run =
        .ok ({ d.filled with
          Messages := d.filled.Messages.map fun m => m.layOut.2 },
          classes.map .messageClass) := by
      rw [hstage]
      rfl
    rw [GenerateGo_of_run hrun, Except.ok.injEq] at hok
    rw [writeFormatted_eq_ok hok]
    have hnone : ∀ m ∈ d.Messages, m.layOut.1 = none := by
      intro m hm
      rw [DialectMessage.layOut_fst]
      exact List.findSome?_eq_none_iff.mp htyped m hm
    rw [mapM_eq_ok_iff, List.forall₂_map_left_iff] at hemit
    obtain ⟨emitted, hall, hclasses, hcrcs⟩ :=
      emitted_of_classes hnone hemit
    refine ⟨emitted, hall, ?_, ?_⟩
    · intro e he
      have hclass : e.1 ∈ classes := hclasses ▸ List.mem_map_of_mem he
      simp [hclass]
    · rw [hcrcs]
      simp [Dialect.generateMsgIds, Dialect.filled, Dialect.generateEnums,
        Function.comp_def]

theorem mem_stageErrors_iff {e : GeneratorFailure} :
    e ∈ d.stageErrors ↔
      d.filled.generateClasses.err = some e ∧ e.IsError := by
  simp only [Dialect.stageErrors, Dialect.generateEnums,
    Dialect.generateMsgIds, List.mem_filterMap, List.mem_cons,
    List.not_mem_nil, or_false, exists_eq_or_imp, exists_eq_left,
    reduceCtorEq, false_and, false_or, Option.filter_eq_some_iff,
    decide_eq_true_eq]

theorem returned_of_typed (htyped : d.typeFailure = none)
    (e : GeneratorFailure) : e ∉ d.stageErrors := by
  rw [mem_stageErrors_iff]
  rintro ⟨herr, herror⟩
  rcases generateClasses_of_typed ((filled_typeFailure d).trans htyped) with
    hpanic | ⟨classes, -, hstage⟩
  · rw [hpanic] at herr
    cases herr
    exact herror
  · rw [hstage] at herr
    cases herr

theorem generatesAll_iff :
    d.GeneratesAll formatErr outcome ↔
      ∀ e, d.typeFailure = some e → ¬ e.IsError := by
  constructor
  · intro hall e hfailure herror
    obtain ⟨herr, -⟩ :=
      generateClasses_of_failure ((filled_typeFailure d).trans hfailure)
    have hreturned :=
      hall.returned e (mem_stageErrors_iff.mpr ⟨herr, herror⟩)
    obtain ⟨d', hdropped⟩ := GenerateGo_of_failure hfailure herror
    rw [hdropped, Except.ok.injEq] at hreturned
    exact writeFormatted_ne_stage hreturned
  · intro hpanics
    cases hfailure : d.typeFailure with
    | none =>
        exact ⟨fun output => complete_of_typed hfailure,
          fun e he => absurd he (returned_of_typed hfailure e)⟩
    | some e =>
        have hpanic := hpanics e hfailure
        obtain ⟨herr, -⟩ :=
          generateClasses_of_failure ((filled_typeFailure d).trans hfailure)
        have hrun : d.filled.generateClasses.run = .error e := by
          rw [Stage.run, herr]
          exact if_neg hpanic
        refine ⟨fun output hok => ?_, fun e' he' => ?_⟩
        · rw [GenerateGo_of_panic hrun] at hok
          cases hok
        · obtain ⟨herr', herror⟩ := mem_stageErrors_iff.mp he'
          rw [herr] at herr'
          cases herr'
          exact absurd herror hpanic

end

/-- A message whose only field has a length that is not a number. -/
def badLength : Dialect where
  Name := "d".toList
  Enums := []
  Messages :=
    [{ Fields := [⟨"uint8_t[x]".toList, "a".toList, [], 0, 0, 0⟩]
       ID := 7
       Name := "M".toList }]

/-- It returns nil, and the output has a crc extra for the message but no
class. -/
theorem badLength_dropped :
    ¬ ∀ formatErr outcome d, Dialect.GeneratesAll formatErr outcome d := by
  intro hall
  let formatErr : List GoDecl → Option String := fun _ => none
  have hfailure : badLength.typeFailure = some (.atoi ['x']) := by
    decide
  obtain ⟨d', hdropped⟩ :
      ∃ d' : Dialect, badLength.GenerateGo formatErr .complete =
        .ok (writeFormatted formatErr .complete
          (badLength.generateEnums.written ++ d'.generateMsgIds.written)) :=
    GenerateGo_of_failure hfailure trivial
  obtain ⟨emitted, hemitted, hclasses, -⟩ :=
    (hall formatErr .complete badLength).complete _ hdropped
  obtain ⟨c, rest, -, -, rfl⟩ := List.forall₂_cons_left_iff.mp hemitted
  have hclass := hclasses c List.mem_cons_self
  simp [badLength, Dialect.generateEnums, Dialect.generateMsgIds] at hclass

end DronesmithEngine.Generator
