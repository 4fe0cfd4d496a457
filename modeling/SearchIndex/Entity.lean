import SearchIndex.Text.Blank

/-!
# Indexed entities

The index holds partitions, documents and attachments of documents. A document
may come in several languages, each an entity of its own. An entity's identity
is the text under which the index keeps it:

* a partition: its name,
* a document: `partition:space.name.language`, the language `default` if it has none,
* an attachment: the identity of its document, `.file.` and its file name.
-/

namespace SearchIndex

/-- A document in one language, or in no particular one. -/
structure DocumentRef where
  partition : String
  space : String
  name : String
  language : Option String := none
  deriving DecidableEq, Repr, Inhabited

/-- A file attached to a document. -/
structure AttachmentRef where
  document : DocumentRef
  filename : String
  deriving DecidableEq, Repr

/-- An entity of the index. -/
inductive EntityRef where
  | partition (name : String)
  | document (document : DocumentRef)
  | attachment (attachment : AttachmentRef)
  deriving DecidableEq, Repr

namespace DocumentRef

/-- The word that stands for a missing language. -/
def defaultLanguage : String := "default"

/-- The document in another language; a blank language is none. -/
def withLanguage (d : DocumentRef) (language : String) : DocumentRef :=
  { d with language := if Text.isBlankText language then none else some language }

/-- The document in no particular language. -/
def withoutLanguage (d : DocumentRef) : DocumentRef :=
  { d with language := none }

/-- The space and the name of a document. -/
def fullName (d : DocumentRef) : String :=
  d.space ++ "." ++ d.name

/-- The language of a document, or the word for none. -/
def languageOrDefault (d : DocumentRef) : String :=
  d.language.getD defaultLanguage

/-- The identity of a document. -/
def identity (d : DocumentRef) : String :=
  d.partition ++ ":" ++ d.fullName ++ "." ++ d.languageOrDefault

/-- Whether two references are to one document in any languages. -/
def sameDocument (d other : DocumentRef) : Bool :=
  d.partition == other.partition && d.space == other.space && d.name == other.name

theorem sameDocument_iff {d other : DocumentRef} :
    d.sameDocument other = true ↔ d.withoutLanguage = other.withoutLanguage := by
  cases d
  cases other
  simp [sameDocument, withoutLanguage, and_assoc]

end DocumentRef

namespace AttachmentRef

/-- The identity of an attachment. -/
def identity (a : AttachmentRef) : String :=
  a.document.identity ++ ".file." ++ a.filename

end AttachmentRef

namespace EntityRef

/-- The identity of an entity. -/
def identity : EntityRef → String
  | .partition name => name
  | .document d => d.identity
  | .attachment a => a.identity

/-- The partition that an entity is or lies in. -/
def partitionName : EntityRef → String
  | .partition name => name
  | .document d => d.partition
  | .attachment a => a.document.partition

/-- The document that an entity is or belongs to. -/
def document? : EntityRef → Option DocumentRef
  | .partition _ => none
  | .document d => some d
  | .attachment a => some a.document

end EntityRef

end SearchIndex
