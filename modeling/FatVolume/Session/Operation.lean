import FatVolume.Session.Basic

/-!
# Operations

What can be asked of a session, as values: `Operation` lists the operations with their
arguments, and `Operation.perform` performs them, so that a history is a list of
operations.
-/

namespace FatVolume

/-- An operation of a session with its arguments. -/
inductive Operation where
  | makeDirectory (path : String)
  | createFile (path : String)
  | removeDirectory (path : String)
  | removeFile (path : String)
  | list (path : Option String)
  | lookup (path : String)
  | openPath (path : String)
  | handleOf (path : String)
  | close (handle : Handle)
  | closeAll
  | setDirectory (handle : Handle)
  | changeDirectory (path : String)
  | read (handle : Handle) (count : Nat)
  | readAll (handle : Handle)
  | seek (handle : Handle) (position : Nat)
  | write (handle : Handle) (content : Bytes) (mode : WriteMode)
  | openFile (handle : Handle)
  | check
  | usage
  | reformat (full : Bool)
  | shutdown
  deriving DecidableEq

/-- What an operation answers. -/
inductive Answer where
  | done
  | entry (entry : Entry)
  | entries (entries : List Entry)
  | handle (handle : Handle)
  | bytes (bytes : Bytes)
  | position (position : Nat)
  | written (count : Nat)
  | openFile (file : OpenFile)
  | usage (usage : Usage)
  deriving DecidableEq

/-- Performs an operation. -/
def Operation.perform : Operation → SessionM Answer
  | makeDirectory path => return .entry (← Session.makeDirectory path)
  | createFile path => return .entry (← Session.createFile path)
  | removeDirectory path => do Session.removeDirectory path; return .done
  | removeFile path => do Session.removeFile path; return .done
  | list path => return .entries (← Session.list path)
  | lookup path => return .entry (← Session.lookup path)
  | openPath path => return .handle (← Session.openPath path)
  | handleOf path => return .handle (← Session.handleOf path)
  | close handle => do Session.close handle; return .done
  | closeAll => do Session.closeAll; return .done
  | setDirectory handle => do Session.setDirectory handle; return .done
  | changeDirectory path => do Session.changeDirectory path; return .done
  | read handle count => return .bytes (← Session.read handle count)
  | readAll handle => return .bytes (← Session.readAll handle)
  | seek handle position => return .position (← Session.seek handle position)
  | write handle content mode => return .written (← Session.write handle content mode)
  | openFile handle => return .openFile (← Session.openFile handle)
  | check => return .usage (← Session.check)
  | usage => return .usage (← Session.usage)
  | reformat full => do Session.reformat full; return .done
  | shutdown => do Session.shutdown; return .done

end FatVolume
