/-! Why an operation on files fails, in the words of the operating system. -/

namespace EntityGen.Files

/-- Why an operation on files fails. -/
inductive FileFault where
  | notFound
  | permissionDenied
  | alreadyThere
  | notDirectory
  | isDirectory
  | nameTooLong
  | tooManyLinks
  | zeroInPath
  | notText
deriving DecidableEq, Repr

namespace FileFault

/-- The text of a fault that has a number. -/
def numbered (text number : String) : String := text ++ " (os error " ++ number ++ ")"

def message : FileFault → String
  | .notFound => numbered "No such file or directory" "2"
  | .permissionDenied => numbered "Permission denied" "13"
  | .alreadyThere => numbered "File exists" "17"
  | .notDirectory => numbered "Not a directory" "20"
  | .isDirectory => numbered "Is a directory" "21"
  | .nameTooLong => numbered "File name too long" "36"
  | .tooManyLinks => numbered "Too many levels of symbolic links" "40"
  | .zeroInPath => "file name contained an unexpected NUL byte"
  | .notText => "stream did not contain valid UTF-8"

end FileFault

end EntityGen.Files
