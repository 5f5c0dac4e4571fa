import WideColumn.Error

/-!
Where an operation may be run to its end by a caller that waits for it.
-/
namespace WideColumn

/-- What surrounds a waiting caller. -/
inductive Site
  | outside
  | currentThread
  | multiThread
  deriving DecidableEq, Inhabited

/-- Outside of any runtime the engine has to know one; a runtime with a single thread would wait for
itself. -/
def Site.allow (site : Site) (runtimeKnown : Bool) : Except Error Unit :=
  match site with
  | outside => if runtimeKnown then .ok () else .error (.invalidConfig .noRuntime)
  | currentThread => .error (.invalidConfig .insideCurrentThread)
  | multiThread => .ok ()

end WideColumn
