import ManagementBus.Stack.Dispatch

/-!
# Handlers by table

A handler given by a list of rules: the first rule that covers a message says what becomes of it,
and a message that no rule covers is left as it is.
-/

namespace ManagementBus

/-- A rule of a handler: which messages it covers, and what it does to them. -/
structure HandlerRule where
  /-- The function covered; every one if there is none. -/
  netFn : Option UInt8 := none
  /-- The command covered; every one if there is none. -/
  cmd : Option UInt8 := none
  setCode : Option UInt8 := none
  setData : Option Payload := none
  /-- Whether the data are put into reverse order. -/
  reverse : Bool := false
  setNetFn : Option UInt8 := none
  setCmd : Option UInt8 := none
  setSource : Option Channel := none

namespace HandlerRule

/-- Whether a rule covers a message. -/
def covers (r : HandlerRule) (m : Message) : Bool :=
  r.netFn.all (· = m.netFn) && r.cmd.all (· = m.cmd)

/-- What a rule makes of a message. -/
def apply (r : HandlerRule) (m : Message) : Message :=
  let data := r.setData.getD m.data
  { m with
    completionCode := r.setCode.getD m.completionCode
    data := if r.reverse then data.reverse else data
    netFn := r.setNetFn.getD m.netFn
    cmd := r.setCmd.getD m.cmd
    infSource := r.setSource.getD m.infSource }

/-- The handler of a list of rules. -/
def handler (rules : List HandlerRule) : Handler := fun m =>
  match rules.find? fun r => r.covers m with
  | some r => r.apply m
  | none => m

end HandlerRule

end ManagementBus
