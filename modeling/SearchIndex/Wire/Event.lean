import SearchIndex.Calendar.Timestamp
import SearchIndex.Cluster.Envelope
import SearchIndex.Indexing.Event
import SearchIndex.Paging.Engine
import SearchIndex.Wire.Entity

/-!
# Tasks, events and envelopes on the wire

Everything that travels between the nodes of a cluster as JSON. Instants are
written as timestamps and node identifiers as text.
-/

namespace SearchIndex

open Json (Record Value)
open Wire (encode decode?)

instance : Wire Calendar.Instant where
  encode i := .text (String.ofList i.timestamp)
  decode? value := do Calendar.Instant.ofTimestamp? (← value.text?).toList

instance : Wire NodeId where
  encode id := .text id.text
  decode? value := do NodeId.ofText? (← value.text?)

instance : Wire TaskKind where
  encode k := .text k.word
  decode? := Wire.ofWord? TaskKind.word [.index, .delete]

instance : Wire PermissionMode where
  encode m := .text m.word
  decode? := Wire.ofWord? PermissionMode.word [.checked, .skipChecks]

instance : Wire RequestContext where
  encode c := .record
    [("priority", encode c.priority), ("disable_event_notification", encode c.quiet),
      ("rendered_document", encode c.rendered)]
  decode? value := do
    let r ← Record.ofValue?
      ["priority", "disable_event_notification", "rendered_document"] value
    some
      { priority := ← r.nullable "priority" decode?
        quiet := ← r.required "disable_event_notification" decode?
        rendered := ← r.nullable "rendered_document" decode? }

instance : Wire ContentEvent where
  encode
    | .documentCreated d => .variant "DocumentCreated" (encode d)
    | .documentUpdated d => .variant "DocumentUpdated" (encode d)
    | .documentDeleted d => .variant "DocumentDeleted" (encode d)
    | .attachmentAdded a => .variant "AttachmentAdded" (encode a)
    | .attachmentUpdated a => .variant "AttachmentUpdated" (encode a)
    | .attachmentDeleted a => .variant "AttachmentDeleted" (encode a)
    | .partitionCreated name => .variant "PartitionCreated" (encode name)
    | .partitionDeleted name => .variant "PartitionDeleted" (encode name)
  decode? value := do
    let (name, content) ← value.newVariant?
    if name = "DocumentCreated" then (decode? content).map .documentCreated
    else if name = "DocumentUpdated" then (decode? content).map .documentUpdated
    else if name = "DocumentDeleted" then (decode? content).map .documentDeleted
    else if name = "AttachmentAdded" then (decode? content).map .attachmentAdded
    else if name = "AttachmentUpdated" then (decode? content).map .attachmentUpdated
    else if name = "AttachmentDeleted" then (decode? content).map .attachmentDeleted
    else if name = "PartitionCreated" then (decode? content).map .partitionCreated
    else if name = "PartitionDeleted" then (decode? content).map .partitionDeleted
    else none

instance : Wire ContentChange where
  encode c := .record [("event", encode c.event), ("context", encode c.context)]
  decode? value := do
    let r ← Record.ofValue? ["event", "context"] value
    some
      { event := ← r.required "event" decode?
        context := ← r.defaulted "context" {} decode? }

instance : Wire TaskPayload where
  encode p := .record
    [("priority", encode p.priority), ("disable_event_notification", encode p.quiet)]
  decode? value := do
    let r ← Record.ofValue? ["priority", "disable_event_notification"] value
    some
      { priority := ← r.required "priority" decode?
        quiet := ← r.defaulted "disable_event_notification" false decode? }

instance : Wire IndexTask where
  encode t := .record
    [("target", encode t.target), ("kind", encode t.kind), ("priority", encode t.priority),
      ("disable_event_notification", encode t.quiet), ("queued_at", encode t.queuedAt)]
  decode? value := do
    let r ← Record.ofValue?
      ["target", "kind", "priority", "disable_event_notification", "queued_at"] value
    some
      { target := ← r.required "target" decode?
        kind := ← r.required "kind" decode?
        priority := ← r.required "priority" decode?
        quiet := ← r.required "disable_event_notification" decode?
        queuedAt := ← r.required "queued_at" decode? }

instance : Wire IndexEvent where
  encode e := .record
    [("kind", encode e.kind), ("target", encode e.target), ("payload", encode e.payload),
      ("queued_at", encode e.queuedAt)]
  decode? value := do
    let r ← Record.ofValue? ["kind", "target", "payload", "queued_at"] value
    some
      { kind := ← r.required "kind" decode?
        target := ← r.required "target" decode?
        payload := ← r.required "payload" decode?
        queuedAt := ← r.required "queued_at" decode? }

instance : Wire Envelope where
  encode e := .record
    [("origin", encode e.origin), ("channel", encode e.channel), ("payload", encode e.payload)]
  decode? value := do
    let r ← Record.ofValue? ["origin", "channel", "payload"] value
    some
      { origin := ← r.required "origin" decode?
        channel := ← r.required "channel" decode?
        payload := ← r.required "payload" decode? }

end SearchIndex
