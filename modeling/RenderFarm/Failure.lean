/-!
# Failures of the farm

A source text that does not evaluate is an outcome, not a failure. Failures are what the farm
itself reports: engines that do not load, threads that are gone, indices out of range, pictures
that cannot be written.
-/

namespace RenderFarm

/-- Why a picture was not written. -/
inductive PictureFailure where
  | unwritable (reason : String)
  | zeroWidth
  | zeroHeight
  deriving DecidableEq

inductive Failure where
  | engineNotLoaded (worker : Nat) (message : String)
  | disconnected (worker : Nat)
  | noSuchWorker (worker : Nat)
  | threadNotStarted (reason : String)
  | picture (failure : PictureFailure)
  deriving DecidableEq

def PictureFailure.message : PictureFailure → String
  | unwritable reason => reason
  | zeroWidth => "Zero width not allowed"
  | zeroHeight => "Zero height not allowed"

namespace Failure

/-- The text shown to the user. -/
def message : Failure → String
  | engineNotLoaded worker message => s!"worker {worker} failed to initialize: " ++ message
  | disconnected worker => s!"worker {worker} disconnected"
  | noSuchWorker worker => s!"no worker with index {worker}"
  | threadNotStarted reason => "failed to spawn thread: " ++ reason
  | picture failure => "image output failed: " ++ failure.message

end Failure

end RenderFarm
