namespace Parley

structure LoadOptions where
  /-- Whether a function that the host did not bind may be replaced by the story's own fallback. -/
  allowFallbacks : Bool := false
deriving DecidableEq, Repr, Inhabited

end Parley
