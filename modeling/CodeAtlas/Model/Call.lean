import CodeAtlas.Model.Payload

/-!
# Recorded calls

One traversed call of a sequence diagram, with the classes that own its two
methods.
-/

namespace CodeAtlas

structure Call where
  callerId : NodeId
  callerName : String
  callerClassId : NodeId
  callerClassName : String
  targetId : NodeId
  targetName : String
  targetClassId : NodeId
  targetClassName : String
  /-- How many calls lead from the root to the caller. -/
  depth : Nat
deriving DecidableEq, Repr, Inhabited

namespace Call

/-- A call whose caller and target share a lane. -/
def isSelfCall (call : Call) : Bool :=
  call.callerClassId == call.targetClassId

/-- How a call is read. -/
def schema : Json.Schema Call where
  title := "struct CallRecord"
  start := default
  fields := [
    .required "caller_id" .string fun value call => { call with callerId := value },
    .required "caller_name" .string fun value call => { call with callerName := value },
    .required "caller_class_id" .string fun value call => { call with callerClassId := value },
    .required "caller_class_name" .string fun value call =>
      { call with callerClassName := value },
    .required "target_id" .string fun value call => { call with targetId := value },
    .required "target_name" .string fun value call => { call with targetName := value },
    .required "target_class_id" .string fun value call => { call with targetClassId := value },
    .required "target_class_name" .string fun value call =>
      { call with targetClassName := value },
    .required "depth" .count fun value call => { call with depth := value }]

end Call

end CodeAtlas
