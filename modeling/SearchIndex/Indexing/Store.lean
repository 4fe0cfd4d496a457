import SearchIndex.Entity

/-!
# The content store

Where documents and their attachments are kept is outside the library; the index
queue only asks which document a reference stands for and which files are
attached to it.
-/

namespace SearchIndex

/-- A stored document, by its own reference, and the names of its attachments. -/
structure DocumentInfo where
  reference : DocumentRef
  attachments : List String := []
  deriving DecidableEq, Repr

/-- Whether a stored document has an attachment of a name. -/
def DocumentInfo.hasAttachment (info : DocumentInfo) (filename : String) : Bool :=
  info.attachments.contains filename

/-- Access to stored content. `getOrCreate` also answers for documents that are
not stored. -/
structure ContentStore where
  get? : DocumentRef → Option DocumentInfo
  getOrCreate : DocumentRef → DocumentInfo

/-- The store of the given documents. A reference stands for the document with
that very reference, or else for the first one that is it in another language. -/
def ContentStore.ofList (documents : List DocumentInfo) : ContentStore where
  get? := find
  getOrCreate d := (find d).getD { reference := d }
where
  /-- The stored document that a reference stands for. -/
  find (d : DocumentRef) : Option DocumentInfo :=
    (documents.find? (·.reference == d)).or (documents.find? (·.reference.sameDocument d))

end SearchIndex
