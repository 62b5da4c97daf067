import AnswerGrading.Blob

namespace AnswerGrading

structure Directory where
  files : List (String × Bytes) := []

namespace Directory

/-- Names of files: not empty, at most 255 bytes, no slash, and not a name for a directory. -/
def isFileName (name : String) : Bool :=
  name != "" && name != "." && name != ".." && !name.contains '/' && !name.contains '\x00'
    && decide (name.utf8ByteSize ≤ 255)

def write? (d : Directory) (name : String) (bs : Bytes) : Option Directory :=
  if isFileName name then some ⟨(name, bs) :: d.files⟩ else none

def read? (d : Directory) (name : String) : Option Bytes :=
  d.files.lookup name

theorem read?_write? {d d' : Directory} {name : String} {bs : Bytes}
    (h : d.write? name bs = some d') : d'.read? name = some bs := by
  unfold write? at h
  split at h
  · cases h
    simp [read?]
  · cases h

def load (d : Directory) (name : String) : Except BlobError (List Rule) :=
  match d.read? name with
  | some bs => Blob.decode bs
  | none => .error .missingFile

end Directory

end AnswerGrading
