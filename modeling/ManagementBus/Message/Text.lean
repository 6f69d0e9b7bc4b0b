import ManagementBus.Message

/-!
# Debug forms of messages

A message is shown by its name and nine of its fields: on one line, or with a line for each field.
Function, command and completion code are hexadecimal, sequence numbers and lengths decimal, and
channels go by name.
-/

namespace ManagementBus.Message

/-- The fields that a debug form shows, in order, with their texts. -/
def shownFields (m : Message) : List (String × String) :=
  [("netfn", hexLiteral m.netFn),
   ("cmd", hexLiteral m.cmd),
   ("seq", toString m.seq.toNat),
   ("completion_code", hexLiteral m.completionCode),
   ("data_len", toString m.data.length),
   ("inf_source", m.infSource.text),
   ("inf_target", m.infTarget.text),
   ("seq_source", toString m.seqSource.toNat),
   ("seq_target", toString m.seqTarget.toNat)]

/-- The debug form on one line: fields are separated by commas. -/
def debugText (m : Message) : String :=
  let fields := m.shownFields.map fun (name, value) => name ++ ": " ++ value
  "Message \x7b " ++ ", ".intercalate fields ++ " \x7d"

/-- The debug form with a line for each field, indented by four and ended by a comma. -/
def debugLines (m : Message) : String :=
  let fields := m.shownFields.map fun (name, value) => "    " ++ name ++ ": " ++ value ++ ",\n"
  "Message \x7b\n" ++ String.join fields ++ "\x7d"

end ManagementBus.Message
