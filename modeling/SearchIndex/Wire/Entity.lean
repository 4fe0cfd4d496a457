import SearchIndex.Entity
import SearchIndex.Fields
import SearchIndex.Indexing.Priority
import SearchIndex.Indexing.Store
import SearchIndex.Settings
import SearchIndex.Wire.Basic

/-!
# Entities and settings on the wire

References to entities, stored documents, priorities and settings as JSON. Every
setting has a default, so that a configuration text need only give those that
differ.
-/

namespace SearchIndex

open Json (Record Value)
open Wire (encode decode?)

/-- The value among some candidates whose word is given. -/
def Wire.ofWord? (word : α → String) (candidates : List α) (value : Value) : Option α := do
  let name ← value.unitVariant?
  candidates.find? (word · == name)

instance : Wire DocumentRef where
  encode d := .record
    [("partition", encode d.partition), ("space", encode d.space), ("name", encode d.name),
      ("language", encode d.language)]
  decode? value := do
    let r ← Record.ofValue? ["partition", "space", "name", "language"] value
    some
      { partition := ← r.required "partition" decode?
        space := ← r.required "space" decode?
        name := ← r.required "name" decode?
        language := ← r.defaulted "language" none decode? }

instance : Wire AttachmentRef where
  encode a := .record [("document", encode a.document), ("filename", encode a.filename)]
  decode? value := do
    let r ← Record.ofValue? ["document", "filename"] value
    some
      { document := ← r.required "document" decode?
        filename := ← r.required "filename" decode? }

instance : Wire EntityRef where
  encode
    | .partition name => .variant "Partition" (encode name)
    | .document d => .variant "Document" (encode d)
    | .attachment a => .variant "Attachment" (encode a)
  decode? value := do
    let (name, content) ← value.newVariant?
    if name = "Partition" then (decode? content).map .partition
    else if name = "Document" then (decode? content).map .document
    else if name = "Attachment" then (decode? content).map .attachment
    else none

instance : Wire DocumentInfo where
  encode info := .record
    [("reference", encode info.reference), ("attachments", encode info.attachments)]
  decode? value := do
    let r ← Record.ofValue? ["reference", "attachments"] value
    some
      { reference := ← r.required "reference" decode?
        attachments := ← r.defaulted "attachments" [] decode? }

instance : Wire Priority where
  encode p := .text p.word
  decode? := Wire.ofWord? Priority.word Priority.all

instance : Wire FieldNames where
  encode f := .record
    [("partition", encode f.partition), ("doc_type", encode f.docType), ("space", encode f.space),
      ("name", encode f.name), ("fullname", encode f.fullName), ("language", encode f.language),
      ("filename", encode f.filename), ("date", encode f.date),
      ("creation_date", encode f.creationDate)]
  decode? value := do
    let r ← Record.ofValue?
      ["partition", "doc_type", "space", "name", "fullname", "language", "filename", "date",
        "creation_date"] value
    let standard : FieldNames := {}
    some
      { partition := ← r.defaulted "partition" standard.partition decode?
        docType := ← r.defaulted "doc_type" standard.docType decode?
        space := ← r.defaulted "space" standard.space decode?
        name := ← r.defaulted "name" standard.name decode?
        fullName := ← r.defaulted "fullname" standard.fullName decode?
        language := ← r.defaulted "language" standard.language decode?
        filename := ← r.defaulted "filename" standard.filename decode?
        date := ← r.defaulted "date" standard.date decode?
        creationDate := ← r.defaulted "creation_date" standard.creationDate decode? }

instance : Wire QueueSettings where
  encode q := .record
    [("default_priority", encode q.defaultPriority),
      ("attachment_priority", encode q.attachmentPriority),
      ("cluster_capacity", encode q.clusterCapacity),
      ("content_channel", encode q.contentChannel), ("index_channel", encode q.indexChannel)]
  decode? value := do
    let r ← Record.ofValue?
      ["default_priority", "attachment_priority", "cluster_capacity", "content_channel",
        "index_channel"] value
    let standard : QueueSettings := {}
    some
      { defaultPriority := ← r.defaulted "default_priority" standard.defaultPriority decode?
        attachmentPriority :=
          ← r.defaulted "attachment_priority" standard.attachmentPriority decode?
        clusterCapacity := ← r.defaulted "cluster_capacity" standard.clusterCapacity decode?
        contentChannel := ← r.defaulted "content_channel" standard.contentChannel decode?
        indexChannel := ← r.defaulted "index_channel" standard.indexChannel decode? }

instance : Wire Settings where
  encode s := .record [("fields", encode s.fields), ("queue", encode s.queue)]
  decode? value := do
    let r ← Record.ofValue? ["fields", "queue"] value
    some
      { fields := ← r.defaulted "fields" {} decode?
        queue := ← r.defaulted "queue" {} decode? }

end SearchIndex
