import Innit.Lib.Wire
import Innit.Subcontext

/-!
# The messages of `subcontext.proto` on the wire

What `SerializeToString` writes for the messages that init and the child exchange: fields in the order of their numbers. The
readers take texts with these fields, in this order.
-/

namespace Innit

/-- `repeated string args = 1`. -/
def argsText (args : List String) : List Char := (args.map String.toList).flatMap (Lib.field '\n')

def readArgs (text : List Char) : Option (List String) :=
  (Lib.readFields '\n' text.length text).map (·.map String.ofList)

/-- `SubcontextCommand`: `execute_command` is field 1, `expand_args_command` field 2. -/
def commandText : SubcontextCommand → List Char
  | .notSet => []
  | .executeCommand args => Lib.field '\n' (argsText args)
  | .expandArgsCommand args => Lib.field '\x12' (argsText args)

def readCommand (text : List Char) : Option SubcontextCommand :=
  match text.head? with
  | none => some .notSet
  | some '\n' => (Lib.readField '\n' text).bind (fun r => (readArgs r.1).map .executeCommand)
  | some _ => (Lib.readField '\x12' text).bind (fun r => (readArgs r.1).map .expandArgsCommand)

/-- The `reply` of `SubcontextReply`: `success` is field 1, `failure` field 2, `expand_args_reply` field 3. -/
def replyCaseText : SubcontextReplyCase → List Char
  | .notSet => []
  | .success => ['\x08', '\x01']
  | .failure errorString errorErrno =>
    Lib.field '\x12' (Lib.field '\n' errorString.toList ++ '\x10' :: Lib.varint errorErrno)
  | .expandArgsReply expandedArgs => Lib.field '\x1a' (argsText expandedArgs)

def readReplyCase (text : List Char) : Option (SubcontextReplyCase × List Char) :=
  match text.head? with
  | some '\x08' => some (.success, text.drop 2)
  | some '\x12' => (Lib.readField '\x12' text).bind (fun r => (Lib.readField '\n' r.1).bind (fun message =>
      (Lib.readVarint message.2.tail).map (fun errno => (.failure (String.ofList message.1) errno.1, r.2))))
  | some '\x1a' => (Lib.readField '\x1a' text).bind (fun r => (readArgs r.1).map (fun args => (.expandArgsReply args, r.2)))
  | _ => some (.notSet, text)

/-- `SubcontextReply`: `trigger_shutdown` is field 4. -/
def replyText (r : SubcontextReply) : List Char :=
  replyCaseText r.reply ++ (r.triggerShutdown.map (fun command => Lib.field '\x22' command.toList)).getD []

def readReply (text : List Char) : Option SubcontextReply :=
  (readReplyCase text).bind (fun r => match r.2 with
    | [] => some { reply := r.1 }
    | rest => (Lib.readField '\x22' rest).map (fun command =>
        { reply := r.1, triggerShutdown := some (String.ofList command.1) }))

namespace SubcontextProtoAux

theorem readArgs_argsText (args : List String) : readArgs (argsText args) = some args := by
  have hfields : Lib.readFields '\n' (argsText args).length (argsText args) = some (args.map String.toList) :=
    Lib.readFields_flatMap '\n' _ _ (Lib.length_le_flatMap_field '\n' _)
  rw [readArgs, hfields, Option.map_some, List.map_map]
  simp

theorem readCommand_commandText (c : SubcontextCommand) : readCommand (commandText c) = some c := by
  cases c with
  | notSet => rfl
  | executeCommand args =>
    have hfield := Lib.readField_field '\n' (argsText args) []
    rw [List.append_nil] at hfield
    change (Lib.readField '\n' (Lib.field '\n' (argsText args))).bind _ = _
    rw [hfield, Option.bind_some, readArgs_argsText]
    rfl
  | expandArgsCommand args =>
    have hfield := Lib.readField_field '\x12' (argsText args) []
    rw [List.append_nil] at hfield
    change (Lib.readField '\x12' (Lib.field '\x12' (argsText args))).bind _ = _
    rw [hfield, Option.bind_some, readArgs_argsText]
    rfl

/-- The reply is read up to what follows it. With no reply, what follows is the shutdown command or nothing. -/
theorem readReplyCase_replyCaseText (r : SubcontextReplyCase) (rest : List Char)
    (hrest : rest = [] ∨ rest.head? = some '\x22') : readReplyCase (replyCaseText r ++ rest) = some (r, rest) := by
  cases r with
  | notSet => rcases hrest with rfl | hrest <;> simp [readReplyCase, replyCaseText, *]
  | success => rfl
  | failure errorString errorErrno =>
    have hvarint := Lib.readVarint_varint errorErrno []
    rw [List.append_nil] at hvarint
    change (Lib.readField '\x12' (Lib.field '\x12' _ ++ rest)).bind _ = _
    rw [Lib.readField_field, Option.bind_some, Lib.readField_field, Option.bind_some, List.tail_cons, hvarint,
      Option.map_some, String.ofList_toList]
  | expandArgsReply expandedArgs =>
    change (Lib.readField '\x1a' (Lib.field '\x1a' _ ++ rest)).bind _ = _
    rw [Lib.readField_field, Option.bind_some, readArgs_argsText]
    rfl

theorem readReply_replyText (r : SubcontextReply) : readReply (replyText r) = some r := by
  obtain ⟨reply, triggerShutdown⟩ := r
  unfold readReply replyText
  cases triggerShutdown with
  | none =>
    change (readReplyCase (replyCaseText reply ++ [])).bind _ = _
    rw [readReplyCase_replyCaseText _ _ (Or.inl rfl)]
    rfl
  | some command =>
    have hfield := Lib.readField_field '\x22' command.toList []
    rw [List.append_nil] at hfield
    change (readReplyCase (replyCaseText reply ++ Lib.field '\x22' command.toList)).bind _ = _
    rw [readReplyCase_replyCaseText _ _ (Or.inr rfl), Option.bind_some]
    change (Lib.readField '\x22' (Lib.field '\x22' command.toList)).map _ = _
    rw [hfield, Option.map_some, String.ofList_toList]

end SubcontextProtoAux

open SubcontextProtoAux

/-- The messages as texts; parsing inverts serialising. -/
def subcontextProto : SubcontextCodec where
  serializeCommand c := String.ofList (commandText c)
  parseCommand s := readCommand s.toList
  serializeReply r := String.ofList (replyText r)
  parseReply s := readReply s.toList
  parseCommand_serialize c := by rw [String.toList_ofList, readCommand_commandText]
  parseReply_serialize r := by rw [String.toList_ofList, readReply_replyText]

end Innit
