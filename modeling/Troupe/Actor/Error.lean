/-!
# What can go wrong between a message and its function

The errors that arise before or instead of an answer: an unknown name on the way to a function, or a
function that panics.  Each becomes the message of an error outcome.
-/

namespace Troupe

inductive Site where
  | function
  | continuation
  | job
  | work
deriving DecidableEq, Repr

def Site.name : Site → String
  | .function => "function"
  | .continuation => "continuation"
  | .job => "dispatched job"
  | .work => "scheduled work"

inductive DispatchError where
  | unknownOperation (name : String)
  | panicked (site : Site) (message : String)
  /-- a path to a group member has no slash -/
  | invalidPath (path : String)
  | unknownMember (name : String)
  | unknownFactory (name : String)
deriving DecidableEq, Repr

def DispatchError.message : DispatchError → String
  | .unknownOperation name => "no such actor method " ++ name
  | .panicked site message => site.name ++ " panicked: " ++ message
  | .invalidPath path => "invalid path " ++ path
  | .unknownMember name => "no such group member " ++ name
  | .unknownFactory name => "no such actor factory " ++ name

end Troupe
