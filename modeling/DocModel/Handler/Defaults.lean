import DocModel.Handler.Basic

/-!
# The handlers that are always there

After the handlers that are given, these are tried in order.
-/

namespace DocModel.Handler

/-- The patterns of the default handlers, with the templates and what these are given. -/
def defaultRules : List (Text × Text × DataRule) :=
  [("^(\\w[\\w.()\\[\\]'\\\"]*)\\s*===?\\s*(.*)$", "equality",
      .groups [("left", 1), ("right", 2)]),
   ("^(\\w[\\w.()\\[\\]'\\\"]*)\\s*!==?\\s*(.*)$", "inequality",
      .groups [("left", 1), ("right", 2)]),
   ("^instanceof (.*)$", "instanceof", .groups [("type", 1)]),
   ("^NaN$", "nan", .matched),
   ("^throws$", "throws", .matched),
   ("^calls\\s+(\\w+)\\s+(\\w+)(?:\\s+times?)?$", "calls", .calls),
   ("^calls\\s+(\\w+)\\s+(\\w+)\\s+times? asynchronously$", "calls_async", .calls),
   ("^=~\\s+/(.*)/$", "string_proximity", .groups [("pattern", 1)]),
   ("^=~\\s+\\[(.*),?\\s*\\.\\.\\.\\s*\\]$", "array_inclusion", .groups [("elements", 1)]),
   ("^one of (.*)$", "array_membership", .groups [("values", 1)]),
   ("^=~\\s+\\[(.*)\\]$", "array_proximity", .groups [("elements", 1)]),
   ("^\\[(.*),?\\s*\\.\\.\\.\\s*\\]$", "array_head", .groups [("head", 1)]),
   ("^\\[\\s*\\.\\.\\.,?\\s*(.*)\\]$", "array_tail", .groups [("tail", 1)]),
   ("\\\x7b([\\s\\S]*),?\\s*\\.\\.\\.\\s*\\\x7d", "object_proximity", .groups [("properties", 1)])]

/-- The handler that a row of this table describes. -/
def ofRule? (rule : Text × Text × DataRule) : Option Handler :=
  (Pattern.parse rule.1).toOption.map fun p => ⟨.pattern p.finder, .text rule.2.1, .null, rule.2.2⟩

/-- **The default handlers.** -/
def defaults : List Handler := defaultRules.filterMap ofRule?

-- Every default pattern can be read.
example : defaults.length = defaultRules.length := by decide +kernel

end DocModel.Handler
