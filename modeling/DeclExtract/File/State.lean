import DeclExtract.Error

/-!
# File states

What a run knows of a file before it looks into it: whether it is there, and whether it can be read.
A file that can be read is a row of bytes, which need not be text.
-/

namespace DeclExtract

/-- What is found under the name of a file. -/
inductive FileState where
  /-- Nothing. -/
  | absent
  /-- Something that cannot be read as a file, such as a directory. -/
  | unreadable
  /-- A file with these bytes. -/
  | content (bytes : ByteArray)

namespace FileState

/-- The text of a file. -/
def text : FileState → Except Error String
  | .content bytes =>
    match String.fromUTF8? bytes with
    | some s => .ok s
    | none => .error .unreadableFile
  | _ => .error .unreadableFile

end FileState

end DeclExtract
