import HeaderCatalog.Tree

/-!
# HeaderCatalog.Tree.Slots — which children a kind of node has

Every kind of the JavaScript grammar is either a leaf or has a fixed list of slots that its
children fill. With this table a caller walks any tree without knowing in advance which part of
it holds what it is after.
-/

namespace HeaderCatalog

/-- A place for children in a kind of node. -/
inductive Slot where
  /-- Every named child, in source order. -/
  | named
  /-- The first child in a field. -/
  | field (name : String)
  /-- The first child in the first of these fields that has one. -/
  | firstOf (names : List String)
  /-- Every child in a field. -/
  | allOf (name : String)
  /-- The first named child of a kind. -/
  | ofKind (kind : String)
deriving DecidableEq, Repr, Inhabited

/-- The kinds without children of interest. -/
def leafKinds : List String := [
  "identifier", "property_identifier", "private_property_identifier",
  "shorthand_property_identifier", "shorthand_property_identifier_pattern",
  "statement_identifier", "number", "string", "regex", "true", "false", "null", "undefined",
  "this", "super", "import", "meta_property", "comment", "html_comment", "hash_bang_line",
  "empty_statement", "debugger_statement", "string_fragment", "escape_sequence", "jsx_text",
  "html_character_reference",
  "Unknown", "Invalid", "Null"]

/-- The slots of every other kind of the grammar. -/
def slotTable : List (String × List Slot) := [
  -- program and modules
  ("program", [.named]),
  ("export_statement", [.allOf "decorator", .named]),
  ("import_statement", [.named]),
  ("import_clause", [.named]),
  ("named_imports", [.named]),
  ("namespace_import", [.named]),
  ("namespace_export", [.named]),
  ("import_specifier", [.field "name", .field "alias"]),
  ("export_clause", [.named]),
  ("export_specifier", [.field "name", .field "alias"]),
  ("import_attribute", [.named]),
  -- declarations
  ("variable_declaration", [.named]),
  ("lexical_declaration", [.named]),
  ("variable_declarator", [.field "name", .field "value"]),
  ("function_declaration", [.field "name", .field "parameters", .field "body"]),
  ("generator_function_declaration", [.field "name", .field "parameters", .field "body"]),
  ("class_declaration",
    [.allOf "decorator", .field "name", .ofKind "class_heritage", .field "body"]),
  ("class_heritage", [.named]),
  ("class_body", [.named]),
  ("method_definition", [.allOf "decorator", .field "name", .field "parameters", .field "body"]),
  ("field_definition", [.allOf "decorator", .field "property", .field "value"]),
  ("class_static_block", [.field "body"]),
  ("decorator", [.named]),
  ("decorator_member_expression", [.field "object", .field "property"]),
  ("decorator_call_expression", [.field "function", .field "arguments"]),
  ("decorator_parenthesized_expression", [.named]),
  -- statements
  ("expression_statement", [.named]),
  ("statement_block", [.named]),
  ("if_statement", [.field "condition", .field "consequence", .field "alternative"]),
  ("else_clause", [.named]),
  ("switch_statement", [.field "value", .field "body"]),
  ("switch_body", [.named]),
  ("switch_case", [.field "value", .allOf "body"]),
  ("switch_default", [.allOf "body"]),
  ("for_statement", [.field "initializer", .field "condition", .field "increment", .field "body"]),
  ("for_in_statement", [.field "left", .field "right", .field "body"]),
  ("while_statement", [.field "condition", .field "body"]),
  ("do_statement", [.field "body", .field "condition"]),
  ("try_statement", [.field "body", .field "handler", .field "finalizer"]),
  ("catch_clause", [.field "parameter", .field "body"]),
  ("finally_clause", [.field "body"]),
  ("with_statement", [.field "object", .field "body"]),
  ("labeled_statement", [.field "label", .field "body"]),
  ("break_statement", [.field "label"]),
  ("continue_statement", [.field "label"]),
  ("return_statement", [.named]),
  ("throw_statement", [.named]),
  -- functions
  ("function_expression", [.field "name", .field "parameters", .field "body"]),
  ("function", [.field "name", .field "parameters", .field "body"]),
  ("generator_function", [.field "name", .field "parameters", .field "body"]),
  ("arrow_function", [.firstOf ["parameters", "parameter"], .field "body"]),
  ("formal_parameters", [.named]),
  -- expressions
  ("parenthesized_expression", [.named]),
  ("sequence_expression", [.named]),
  ("assignment_expression", [.field "left", .field "right"]),
  ("augmented_assignment_expression", [.field "left", .field "right"]),
  ("binary_expression", [.field "left", .field "right"]),
  ("unary_expression", [.field "argument"]),
  ("update_expression", [.field "argument"]),
  ("ternary_expression", [.field "condition", .field "consequence", .field "alternative"]),
  ("call_expression", [.field "function", .field "arguments"]),
  ("new_expression", [.field "constructor", .field "arguments"]),
  ("arguments", [.named]),
  ("member_expression", [.field "object", .field "property"]),
  ("subscript_expression", [.field "object", .field "index"]),
  ("await_expression", [.named]),
  ("yield_expression", [.named]),
  ("spread_element", [.named]),
  ("array", [.named]),
  ("object", [.named]),
  ("pair", [.field "key", .field "value"]),
  ("computed_property_name", [.named]),
  ("class", [.allOf "decorator", .field "name", .ofKind "class_heritage", .field "body"]),
  ("template_string", [.named]),
  ("template_substitution", [.named]),
  -- patterns
  ("assignment_pattern", [.field "left", .field "right"]),
  ("object_pattern", [.named]),
  ("array_pattern", [.named]),
  ("rest_pattern", [.named]),
  ("pair_pattern", [.field "key", .field "value"]),
  ("object_assignment_pattern", [.field "left", .field "right"]),
  -- jsx
  ("jsx_element", [.field "open_tag", .named, .field "close_tag"]),
  ("jsx_self_closing_element", [.field "name", .allOf "attribute"]),
  ("jsx_opening_element", [.field "name", .allOf "attribute"]),
  ("jsx_closing_element", [.field "name"]),
  ("jsx_expression", [.named]),
  ("jsx_attribute", [.named]),
  ("jsx_namespace_name", [.named]),
  ("nested_identifier", [.named]),
  ("ERROR", [.named])]

/-- The slots of a kind; a kind that the table does not cover has none. -/
def slots? (kind : String) : Option (List Slot) :=
  slotTable.lookup kind

end HeaderCatalog
