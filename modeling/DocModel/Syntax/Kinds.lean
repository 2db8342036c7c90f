import DocModel.Syntax.Graph

/-!
# Kinds of nodes

Which children of a node a walk goes down to depends on the kind of the node: all that are of
a named kind, those in certain roles, or none, because nothing below the node can declare
a function. A `ChildTable` says so for each kind. A kind that is not in the table is unknown, and
a walk stops there. `scriptTable` is the table of the script language.
-/

namespace DocModel

/-- Which children of a node a walk goes down to. -/
inductive Slots where
  /-- The children of a named kind, comments apart. -/
  | named
  /-- The nodes in these roles, in this order. -/
  | roles (names : List String)
  /-- None. -/
  | leaf
  deriving DecidableEq

/-- **The slots of each kind of node.** -/
abbrev ChildTable := List (String × Slots)

/-- The kinds whose named children are all looked at. -/
def branchKinds : List String :=
  ["program", "statement_block", "expression_statement", "export_statement", "ERROR",
   "function_declaration", "generator_function_declaration", "function_expression", "function",
   "generator_function", "arrow_function", "method_definition", "formal_parameters",
   "class_declaration", "class", "class_heritage", "class_body", "field_definition",
   "class_static_block", "decorator", "variable_declaration", "lexical_declaration",
   "using_declaration", "else_clause", "switch_body", "switch_case", "switch_default",
   "for_statement", "return_statement", "throw_statement", "parenthesized_expression",
   "arguments", "sequence_expression", "await_expression", "yield_expression", "spread_element",
   "object", "computed_property_name", "array", "template_string", "template_substitution",
   "object_pattern", "array_pattern", "pair_pattern", "rest_pattern", "assignment_pattern",
   "object_assignment_pattern", "jsx_element", "jsx_self_closing_element", "jsx_opening_element",
   "jsx_attribute", "jsx_expression"]

/-- The kinds of which the nodes in certain roles are looked at. -/
def roleKinds : List (String × List String) :=
  [("variable_declarator", ["name", "value"]),
   ("if_statement", ["condition", "consequence", "alternative"]),
   ("switch_statement", ["value", "body"]), ("for_in_statement", ["left", "right", "body"]),
   ("while_statement", ["condition", "body"]), ("do_statement", ["body", "condition"]),
   ("labeled_statement", ["body"]), ("with_statement", ["object", "body"]),
   ("try_statement", ["body", "handler", "finalizer"]), ("catch_clause", ["parameter", "body"]),
   ("finally_clause", ["body"]), ("assignment_expression", ["left", "right"]),
   ("augmented_assignment_expression", ["left", "right"]),
   ("call_expression", ["function", "arguments"]),
   ("new_expression", ["constructor", "arguments"]),
   ("member_expression", ["object", "property"]), ("subscript_expression", ["object", "index"]),
   ("ternary_expression", ["condition", "consequence", "alternative"]),
   ("binary_expression", ["left", "right"]), ("unary_expression", ["argument"]),
   ("update_expression", ["argument"]), ("pair", ["key", "value"])]

/-- The kinds below which no function can be declared. -/
def leafKinds : List String :=
  ["jsx_closing_element", "jsx_namespace_name", "jsx_text", "html_character_reference", "comment",
   "hash_bang_line", "html_comment", "import_statement", "import_clause", "import_attribute",
   "namespace_import", "named_imports", "import_specifier", "export_clause", "export_specifier",
   "namespace_export", "import", "break_statement", "continue_statement", "debugger_statement",
   "empty_statement", "identifier", "property_identifier", "shorthand_property_identifier",
   "shorthand_property_identifier_pattern", "private_property_identifier", "statement_identifier",
   "nested_identifier", "string", "string_fragment", "escape_sequence", "regex", "regex_pattern",
   "regex_flags", "number", "this", "super", "true", "false", "null", "undefined",
   "meta_property", "optional_chain", "glimmer_template", "glimmer_opening_tag",
   "glimmer_closing_tag"]

/-- **The table of the script language.** -/
def scriptTable : ChildTable :=
  branchKinds.map (·, .named) ++ roleKinds.map (fun (kind, names) => (kind, .roles names))
    ++ leafKinds.map (·, .leaf)

/-- **The children of a node that a walk goes down to**; nothing if the kind is unknown. -/
def Graph.slots? (g : Graph) (table : ChildTable) (n : NodeId) : Option (List NodeId) :=
  (table.lookup (g.kind n)).map fun
    | .named => (g.namedChildren n).filter fun c => g.kind c != "comment"
    | .roles names => names.filterMap (g.role? n)
    | .leaf => []

/-! ## Families of kinds -/

/-- Declarations of functions. -/
def isFunctionDeclaration (kind : String) : Bool :=
  kind == "function_declaration" || kind == "generator_function_declaration"

/-- Functions that stand where an expression can stand, and methods. -/
def isFunctionExpression (kind : String) : Bool :=
  ["function_expression", "function", "generator_function", "arrow_function",
    "method_definition"].contains kind

/-- Everything that declares a function. -/
def isFunction (kind : String) : Bool := isFunctionDeclaration kind || isFunctionExpression kind

/-- Names. -/
def isIdentifier (kind : String) : Bool :=
  ["identifier", "property_identifier", "shorthand_property_identifier",
    "private_property_identifier", "statement_identifier"].contains kind

/-- Assignments. -/
def isAssignment (kind : String) : Bool :=
  kind == "assignment_expression" || kind == "augmented_assignment_expression"

/-- Accesses to a member of an object. -/
def isMemberAccess (kind : String) : Bool :=
  kind == "member_expression" || kind == "subscript_expression"

/-- Texts in quotes. -/
def isStringLiteral (kind : String) : Bool := kind == "string" || kind == "template_string"

end DocModel
