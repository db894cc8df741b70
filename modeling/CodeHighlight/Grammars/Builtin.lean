import CodeHighlight.Data.Value

/-!
# Built-in descriptors

The grammars that come with the program: for each a parser binding, the keys of its language, and
the table that names the scopes of its nodes.
-/

namespace CodeHighlight.Builtin

/-- Selectors that lead to one scope. -/
def scope (selectors name : String) : Key × Value := (.str selectors, .str name)

/-- Literal tokens that lead to one scope. -/
def tokens (texts : List String) (name : String) : Key × Value :=
  scope (", ".intercalate (texts.map fun t => "\"" ++ t ++ "\"")) name

/-- A descriptor of a grammar around a parser binding. -/
def descriptor (name parser : String) (keys : List String) (scopes : Entries Key Value) : Value :=
  .map [
    (.str "name", .str name),
    (.str "type", .str "tree-sitter"),
    (.str "parser", .str parser),
    (.str "keys", .list (keys.map Value.str)),
    (.str "scopes", .map scopes)]

/-- The scopes of JavaScript. -/
def javascriptScopes : Entries Key Value :=
  [ scope "program" "source.js",
    scope "comment" "comment.block",
    scope "hash_bang_line" "comment.block",
    scope "string" "string.quoted",
    scope "template_string" "string.quoted.template",
    scope "escape_sequence" "constant.character.escape",
    scope "regex" "string.regexp",
    scope "template_substitution" "embedded.source",
    tokens ["$\x7b"] "punctuation.section.embedded",
    scope "template_substitution > \"\x7d\"" "punctuation.section.embedded",
    scope "number" "constant.numeric",
    scope "\"true\", \"false\", true, false" "constant.language.boolean",
    scope "\"null\", null, \"undefined\", undefined" "constant.language",
    scope "this" "variable.language.this",
    scope "super" "variable.language.super",
    (.str "identifier", .list [
      .map [(.str "match", .str "^[A-Z][A-Z0-9_]+$"), (.str "scopes", .str "constant.other")],
      .str "variable"]),
    scope "property_identifier" "variable.other.object.property",
    scope "shorthand_property_identifier" "variable.other.object.property",
    scope "private_property_identifier" "variable.other.object.property",
    scope "function_declaration > identifier" "entity.name.function",
    scope "function_expression > identifier" "entity.name.function",
    scope "generator_function_declaration > identifier" "entity.name.function",
    scope "method_definition > property_identifier" "entity.name.function",
    scope "call_expression > identifier" "entity.name.function",
    scope "call_expression > member_expression > property_identifier" "entity.name.function",
    scope "class_declaration > identifier" "entity.name.type.class",
    scope "class > identifier" "entity.name.type.class",
    scope "new_expression > identifier" "entity.name.type.class",
    scope "formal_parameters > identifier" "variable.parameter",
    tokens ["var", "let", "const"] "storage.type",
    tokens ["function", "class", "extends", "static", "get", "set", "async"] "storage.type",
    tokens ["if", "else", "switch", "case", "default"] "keyword.control",
    tokens ["for", "while", "do", "break", "continue"] "keyword.control",
    tokens ["return", "throw", "try", "catch", "finally", "await", "yield"] "keyword.control",
    tokens ["import", "export", "from", "as"] "keyword.control",
    tokens ["new", "delete", "typeof", "instanceof", "void", "in", "of"] "keyword.operator",
    tokens ["=", "+=", "-=", "*=", "/=", "%=", "**=", "&&=", "||=", "??="]
      "keyword.operator.assignment",
    tokens ["+", "-", "*", "/", "%", "**", "++", "--"] "keyword.operator.arithmetic",
    tokens ["==", "===", "!=", "!==", "<", "<=", ">", ">="] "keyword.operator.comparison",
    tokens ["&&", "||", "!", "??"] "keyword.operator.logical",
    tokens ["=>"] "storage.type.function.arrow",
    tokens ["...", "?."] "keyword.operator",
    tokens [";"] "punctuation.terminator.statement",
    tokens [","] "punctuation.separator.delimiter",
    tokens ["."] "meta.delimiter.period",
    tokens ["(", ")", "[", "]", "\x7b", "\x7d"] "punctuation.bracket" ]

/-- The descriptor of JavaScript. -/
def javascript : Value :=
  descriptor "JavaScript" "tree_sitter_javascript"
    ["js", "javascript", "mjs", "cjs", "jsx"] javascriptScopes

/-- The scopes of Python. -/
def pythonScopes : Entries Key Value :=
  [ scope "module" "source.python",
    scope "comment" "comment.line",
    scope "string" "string.quoted",
    scope "escape_sequence" "constant.character.escape",
    scope "interpolation" "meta.embedded",
    scope "interpolation > \"\x7b\", interpolation > \"\x7d\"" "punctuation.section.embedded",
    scope "integer" "constant.numeric.integer",
    scope "float" "constant.numeric.float",
    scope "\"True\", \"False\", true, false" "constant.language.boolean",
    scope "\"None\", none" "constant.language",
    (.str "identifier", .list [
      .map [(.str "exact", .str "self"), (.str "scopes", .str "variable.language.self")],
      .map [(.str "exact", .str "cls"), (.str "scopes", .str "variable.language.cls")],
      .map [(.str "match", .str "^[A-Z][A-Z0-9_]+$"), (.str "scopes", .str "constant.other")],
      .str "variable"]),
    scope "function_definition > identifier" "entity.name.function",
    scope "class_definition > identifier" "entity.name.type.class",
    scope "call > identifier" "entity.name.function",
    scope "call > attribute > identifier:nth-child(2)" "entity.name.function",
    scope "attribute > identifier:nth-child(2)" "variable.other.object.property",
    scope "decorator > identifier" "entity.name.function.decorator",
    scope "decorator > \"@\"" "entity.name.function.decorator",
    scope "parameters > identifier" "variable.parameter",
    scope "default_parameter > identifier:nth-child(0)" "variable.parameter",
    scope "typed_parameter > identifier:nth-child(0)" "variable.parameter",
    scope "keyword_argument > identifier:nth-child(0)" "variable.parameter",
    scope "type" "support.type",
    tokens ["def", "class", "lambda", "async"] "storage.type",
    tokens ["global", "nonlocal"] "storage.modifier",
    tokens ["if", "elif", "else", "for", "while", "break", "continue", "pass"] "keyword.control",
    tokens ["return", "yield", "await", "raise", "try", "except", "finally", "with"]
      "keyword.control",
    tokens ["import", "from", "as", "match", "case"] "keyword.control",
    tokens ["del", "assert", "print", "exec"] "keyword.other",
    tokens ["and", "or", "not", "in", "is"] "keyword.operator.logical",
    tokens ["=", "+=", "-=", "*=", "/=", "//=", "%=", "**=", ":="] "keyword.operator.assignment",
    tokens ["+", "-", "*", "/", "//", "%", "**", "@", "~", "&", "|", "^", "<<", ">>"]
      "keyword.operator",
    tokens ["==", "!=", "<", "<=", ">", ">=", "<>"] "keyword.operator.comparison",
    tokens ["->"] "punctuation.separator.annotation",
    tokens [","] "punctuation.separator.delimiter",
    tokens [":"] "punctuation.separator",
    tokens ["."] "meta.delimiter.period",
    tokens ["(", ")", "[", "]", "\x7b", "\x7d"] "punctuation.bracket" ]

/-- The descriptor of Python. -/
def python : Value :=
  descriptor "Python" "tree_sitter_python"
    ["python", "py", "python3"] pythonScopes

/-- The descriptors with their file names. -/
def descriptors : List (String × Value) :=
  [("javascript.yml", javascript), ("python.yml", python)]

end CodeHighlight.Builtin
