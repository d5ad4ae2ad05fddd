import DistDirectives.Path

/-!
# Exclusions

A run leaves out every source path in which one of the excluded runs of segments
occurs. Patterns without any segment exclude nothing and are dropped.
-/

namespace DistDirectives.Run

/-- The excluded runs of segments of a list of patterns. -/
def exclusionsOf (patterns : List Text) : List Path :=
  (patterns.map Path.ofText).filter (!·.isEmpty)

/-- Whether an excluded run of segments occurs in a path. -/
def isExcluded (exclusions : List Path) (path : Path) : Bool :=
  exclusions.any fun pattern => path.containsRun pattern.text

end DistDirectives.Run
