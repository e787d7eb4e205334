/-! Why a file operation is refused. -/

namespace ZshStartup.Files

inductive Refusal where
  /-- A file or a directory on the way to it does not exist. -/
  | notFound
  /-- There is something where a directory should be made. -/
  | alreadyExists
  /-- Something that is not a directory is used as one. -/
  | notDirectory
  /-- A directory is used as a file. -/
  | isDirectory
  /-- A path or a name in it is longer than the system allows. -/
  | nameTooLong
  /-- A path contains the character that ends texts inside the system. -/
  | nulCharacter
  /-- The bytes of a text are not UTF-8. -/
  | notUtf8
  /-- What should be copied is not a regular file. -/
  | notRegular
  /-- A settings file that was asked for is not there. -/
  | settingsNotFound
  /-- Any other cause, in the words of the system. -/
  | other (text : String)
deriving DecidableEq, Repr

def Refusal.message : Refusal → String
  | .notFound => "No such file or directory (os error 2)"
  | .alreadyExists => "File exists (os error 17)"
  | .notDirectory => "Not a directory (os error 20)"
  | .isDirectory => "Is a directory (os error 21)"
  | .nameTooLong => "File name too long (os error 36)"
  | .nulCharacter => "file name contained an unexpected NUL byte"
  | .notUtf8 => "stream did not contain valid UTF-8"
  | .notRegular => "the source path is neither a regular file nor a symlink to a regular file"
  | .settingsNotFound => "settings file not found"
  | .other text => text

end ZshStartup.Files
