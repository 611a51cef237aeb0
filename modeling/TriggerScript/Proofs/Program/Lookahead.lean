import TriggerScript.Proofs.Grammar.Inversion
import TriggerScript.Proofs.Grammar.Lookahead
import TriggerScript.Proofs.Program.Grammar

/-!
# Looking ahead in programs

The tables that tell, token by token, how a program is read: what the tokens of each rule begin with, and
what cannot stand behind them. They are checked against the grammar by evaluation.

* `checks_bodies`: variables, types, attributes, calls, blocks and values are read in one way.
* `checks_program`: so is everything else, apart from a return type that locals or a `;` follow. Where a
  type ends and the attributes of the first local begin is not told by the tokens ahead.
* `lacks_arrow`: of the rules for parts, only those that hold a return type lead to a `->`.
-/

namespace TriggerScript

open Grammar

namespace ProgramGrammar

open Beginning (all first)

/-- What a variable begins with. -/
def variableBeginnings : List Beginning :=
  [first ["["], first ["label", "label"], first ["label", "["]]

/-- What a definition of a library begins with. -/
def itemBeginnings : List Beginning :=
  variableBeginnings ++
    [first ["preset"], first ["function"], first ["action"], first ["trigger"]]

/-- What an imported definition begins with. -/
def externalBeginnings : List Beginning :=
  variableBeginnings ++ [first ["preset"], first ["function"], first ["action"], first ["event"]]

/-- What a value begins with. -/
def valueBeginnings : List Beginning :=
  [first ["text"], first ["str"], first ["int"], first ["bool"], first ["label"], first ["\x7b"]]

/-- What the tokens of the rules begin with. -/
def beginnings : List (List String × List Beginning) :=
  [(["program", "sections", "%2"], [all [], first ["import"], first ["library"]]),
    (["%1", "section"], [first ["import"], first ["library"]]),
    (["import"], [first ["import"]]),
    (["library"], [first ["library"]]),
    (["ext_items", "%4"], all [] :: externalBeginnings),
    (["%3", "ext_item"], externalBeginnings),
    (["lib_items", "%6"], all [] :: itemBeginnings),
    (["%5", "lib_item"], itemBeginnings),
    (["ext_members"], [all [], first ["label", "="]]),
    (["%7", "ext_member"], [first ["label", "="]]),
    (["%8", "%10", "%12", "%16", "%20", "%26"], [all [], first [","]]),
    (["callable_kind"], [all ["function"], all ["action"], all ["event"]]),
    (["ext_params", "params"], [all [], first ["["], first ["label", ":"]]),
    (["%9", "ext_param", "%15", "param"], [first ["["], first ["label", ":"]]),
    (["member_names", "attr_list"], [all [], first ["label"]]),
    (["%11", "%19", "attribute"], [first ["label"]]),
    (["locals", "%14", "block_locals", "%22"], all [] :: variableBeginnings),
    (["%13", "%21", "variable"], variableBeginnings),
    (["ret"], [all [], first ["->", "label"]]),
    (["type"], [all ["label"], first ["label", "["]]),
    (["dims", "%18", "attrs", "indices", "%28"], [all [], first ["["]]),
    (["%17", "dim", "%27", "index"], [first ["["]]),
    (["block"], [first ["\x7b"]]),
    (["statements", "%24"], [all [], first ["label", "("]]),
    (["%23", "statement", "call"], [first ["label", "("]]),
    (["args"], all [] :: valueBeginnings),
    (["%25", "value"], valueBeginnings)]

/-- What does not stand behind the rules: mostly that with which a list would go on. -/
def bars : List (List String × List (List String)) :=
  [(["program", "sections", "%1", "%2"], [["import"], ["library"]]),
    (["ext_items", "%3", "%4"], externalBeginnings.map (·.word)),
    (["lib_items", "%5", "%6"], itemBeginnings.map (·.word)),
    (["ext_members", "%7", "%8", "member_names", "%11", "%12"], [["label"], [","]]),
    (["ext_params", "%9", "%10"], [["["], ["label"], [","], ["("]]),
    (["ext_param"], [["("]]),
    (["params", "%15", "%16"], [["["], ["label"], [","], ["="], ["."], ["("]]),
    (["param"], [["["], ["="], ["."], ["("]]),
    (["locals", "%13", "%14", "block_locals", "%21", "%22"], variableBeginnings.map (·.word)),
    (["type", "dims", "%17", "%18", "attrs", "indices", "%27", "%28"], [["["]]),
    (["attr_list", "%19", "%20"], [["label"], [","], ["="]]),
    (["attribute"], [["="]]),
    (["statements", "%23", "%24"], [["label", "("]]),
    (["args", "%25", "%26"], [[","], ["."], ["["], ["("]] ++ valueBeginnings.map (·.word)),
    (["value"], [["."], ["["], ["("]])]

/-- The rules for bodies and what they are made of. -/
def bodyRules : List String :=
  ["locals", "%13", "%14", "variable", "type", "dims", "%17", "%18", "dim", "attrs", "attr_list",
    "%19", "%20", "attribute", "block", "block_locals", "%21", "%22", "statements", "%23", "%24",
    "statement", "call", "args", "%25", "%26", "value", "indices", "%27", "%28", "index"]

/-- The rules for all else, except for return types. -/
def otherRules : List String :=
  ["program", "sections", "%1", "%2", "section", "import", "library", "ext_items", "%3", "%4",
    "ext_item", "lib_items", "%5", "%6", "lib_item", "ext_members", "%7", "%8", "ext_member",
    "callable_kind", "ext_params", "%9", "%10", "ext_param", "member_names", "%11", "%12", "params",
    "%15", "%16", "param"]

/-- What can be told from the tokens ahead. -/
def lookahead (rules : List String) : Lookahead :=
  .ofRows beginnings bars rules

/-- What stands behind a return type, with the return type. -/
def returning : List (List Symbol) :=
  [[r "ret", r "locals", r "block"], [r "ret", t ";"]]

/-- The rules that do not lead to return types. -/
def plainRules : List String :=
  bodyRules ++ ["ext_members", "%7", "%8", "ext_member", "callable_kind", "ext_params", "%9", "%10",
    "ext_param", "member_names", "%11", "%12", "params", "%15", "%16", "param"]

/-- All that is checked by evaluation. The grammar and the tables are evaluated once for it. -/
lemma checked : (lookahead []).covers programGrammar ∧
    (lookahead bodyRules).checks programGrammar [] (· ≠ "->") ∧
    (lookahead (bodyRules ++ otherRules)).checks programGrammar returning (· ≠ "->") ∧
    programGrammar.lacks "->" plainRules := by
  decide +kernel

lemma covers (rules : List String) : (lookahead rules).covers programGrammar :=
  checked.1

lemma checks_bodies : (lookahead bodyRules).checks programGrammar [] (· ≠ "->") :=
  checked.2.1

lemma checks_program :
    (lookahead (bodyRules ++ otherRules)).checks programGrammar returning (· ≠ "->") :=
  checked.2.2.1

lemma lacks_arrow : programGrammar.lacks "->" plainRules :=
  checked.2.2.2

end ProgramGrammar

end TriggerScript
