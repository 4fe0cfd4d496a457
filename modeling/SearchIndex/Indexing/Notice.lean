import SearchIndex.NodeId
import SearchIndex.Indexing.Task
import SearchIndex.Level

/-!
# Notices of the index queue

What the parts of a node report while a change goes its way from a request or an
event to the index.
-/

namespace SearchIndex

/-- What a node reports. -/
inductive QueueNotice where
  | unknownDocument (identity : String)
  | unknownOwner (identity : String)
  | unknownAttachment (identity : String)
  | queueing (task : IndexTask)
  | broadcast (channel : String) (receivers : Nat)
  | malformed (channel : String) (origin : NodeId)
  | lagged (channel : String) (missed : Nat)
  | stopped (channel : String)
  | writerMissing (task : IndexTask)
  | applying (task : IndexTask)
  | writerFailed (task : IndexTask) (cause : String)
  deriving DecidableEq, Repr

namespace QueueNotice

/-- The level of a notice. -/
def level : QueueNotice → Level
  | .queueing _ | .broadcast _ _ | .stopped _ | .applying _ => .debug
  | .writerFailed _ _ => .error
  | _ => .warn

/-- The text of a notice. -/
def text : QueueNotice → String
  | .unknownDocument identity => "cannot index unknown document " ++ identity
  | .unknownOwner identity => "cannot index attachment of unknown document " ++ identity
  | .unknownAttachment identity => "cannot index unknown attachment " ++ identity
  | .queueing task => "queueing " ++ task.text
  | .broadcast channel receivers =>
    "broadcast on '" ++ channel ++ "' reached " ++ toString receivers ++ " receivers"
  | .malformed channel origin =>
    "dropping malformed event on '" ++ channel ++ "' from node " ++ origin.text
  | .lagged channel missed =>
    "cluster receiver on '" ++ channel ++ "' lagged, " ++ toString missed ++ " events lost"
  | .stopped channel => "cluster receiver on '" ++ channel ++ "' stopped"
  | .writerMissing task => "index writer not available, dropping " ++ task.text
  | .applying task => "applying " ++ task.text
  | .writerFailed task cause => "index writer failed on " ++ task.text ++ ": " ++ cause

end QueueNotice

end SearchIndex
