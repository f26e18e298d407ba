import DocDrift.Files.Path
import DocDrift.Signature.Extraction

/-!
Results. A file that could be scanned has a summary with the verdicts on its functions; one that
could not has an error, with the verdicts reached before it, if scanning began.
-/

namespace DocDrift

structure Verdict where
  compliant : Bool
  message : String
  path : Option Path := none
  functionName : Text := []
  line : Int := 0
  deriving DecidableEq, Repr

/-- The place of the function, for diagnostics: path, line and name. -/
def Verdict.location (verdict : Verdict) : String :=
  let file := match verdict.path with
    | some path => path.toString ++ ":"
    | none => ""
  file ++ toString verdict.line ++ ": \x60" ++ String.ofList verdict.functionName ++ "\x60"

inductive ReadError where
  | notFound (path : Path)
  | notADirectory (path : Path)
  | isADirectory (path : Path)
  /-- Bytes from `start` on, `count` of them and the first of them `byte`, are no UTF-8. -/
  | undecodable (byte : UInt8) (start count : Nat) (reason : String)
  deriving DecidableEq, Repr

namespace ReadError

def message : ReadError → String
  | notFound path => "[Errno 2] No such file or directory: " ++ Text.quoted path.render
  | notADirectory path => "[Errno 20] Not a directory: " ++ Text.quoted path.render
  | isADirectory path => "[Errno 21] Is a directory: " ++ Text.quoted path.render
  | undecodable byte start count reason =>
    if count = 1 then
      "'utf-8' codec can't decode byte 0x" ++ Text.hexadecimal 2 byte.toNat ++ " in position " ++
        toString start ++ ": " ++ reason
    else
      "'utf-8' codec can't decode bytes in position " ++ toString start ++ "-" ++
        toString (start + count - 1) ++ ": " ++ reason

end ReadError

inductive Cause where
  | scan (message : String) (offset : Option Nat)
  | invariant (message : String)
  | read (error : ReadError)
  deriving DecidableEq, Repr

namespace Cause

def message : Cause → String
  | scan message _ => message
  | invariant message => message
  | read error => error.message

def offset? : Cause → Option Nat
  | scan _ offset => offset
  | _ => none

def isScan : Cause → Bool
  | scan _ _ => true
  | _ => false

def isInvariant : Cause → Bool
  | invariant _ => true
  | _ => false

end Cause

inductive Result where
  /-- The outcome of checking a file, with the verdicts on its functions. -/
  | summary (success : Bool) (message : String) (path : Option Path) (data : Option (List Verdict))
  /-- The verdict on one function, standing alone. -/
  | verdict (verdict : Verdict)
  /-- A file that could not be checked, with the verdicts reached before the failure. -/
  | error (message : String) (path : Option Path) (cause : Option Cause) (operation target : String)
      (data : Option (List Verdict))
  deriving DecidableEq, Repr

namespace Result

def success : Result → Bool
  | summary success _ _ _ => success
  | verdict v => v.compliant
  | error .. => false

def message : Result → String
  | summary _ message _ _ => message
  | verdict v => v.message
  | error message _ _ _ _ _ => message

def path : Result → Option Path
  | summary _ _ path _ => path
  | verdict v => v.path
  | error _ path _ _ _ _ => path

def data : Result → Option (List Verdict)
  | summary _ _ _ data => data
  | verdict _ => none
  | error _ _ _ _ _ data => data

def isError : Result → Bool
  | error .. => true
  | _ => false

def verdicts (result : Result) : List Verdict := result.data.getD []

end Result

end DocDrift
