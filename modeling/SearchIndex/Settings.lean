import SearchIndex.Fields
import SearchIndex.Indexing.Priority

/-!
# Settings

The settings of an installation: the names of its index fields, and how it
queues changes to the index.
-/

namespace SearchIndex

/-- How changes to the index are queued. -/
structure QueueSettings where
  defaultPriority : Priority := .default
  attachmentPriority : Priority := .low
  clusterCapacity : Nat := 1024
  contentChannel : String := "sieve.content"
  indexChannel : String := "sieve.index"
  deriving DecidableEq, Repr

/-- All settings of an installation. -/
structure Settings where
  fields : FieldNames := {}
  queue : QueueSettings := {}
  deriving DecidableEq, Repr

namespace Settings

/-- Renames the field of the partition. -/
def withPartitionField (s : Settings) (name : String) : Settings :=
  { s with fields.partition := name }

/-- Renames the field of the type. -/
def withDocTypeField (s : Settings) (name : String) : Settings :=
  { s with fields.docType := name }

/-- Sets the priority of tasks for which nothing else asks for one. -/
def withDefaultPriority (s : Settings) (priority : Priority) : Settings :=
  { s with queue.defaultPriority := priority }

/-- Sets the priority of attachments that are indexed along with a change. -/
def withAttachmentPriority (s : Settings) (priority : Priority) : Settings :=
  { s with queue.attachmentPriority := priority }

/-- Sets how many messages the cluster keeps; it keeps at least one. -/
def withClusterCapacity (s : Settings) (capacity : Nat) : Settings :=
  { s with queue.clusterCapacity := max capacity 1 }

end Settings

end SearchIndex
