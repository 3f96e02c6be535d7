import Nullxes.Launcher.Apps

/-!
# Field codes

`parse_exec` compares whole tokens with the field codes. A field code that stands by itself is
dropped, and everything else is passed on as `shlex` returns it.

## Main definitions

* `Literal` — a token in which every percent sign belongs to a pair of them
* `Expanded` — what the arguments would be with all field codes and pairs expanded

## Main results

* `parseExec_spec` — what is kept, what is dropped
* `not_expanded` — a field code inside of a token, and a pair
-/

namespace Nullxes

namespace Launcher

/-- The characters of the field codes. -/
def codeChars : List Char := ['f', 'F', 'u', 'U', 'i', 'c', 'k', 'v', 'm']

/-- Percent signs come in pairs. -/
def paired : List Char → Bool
  | [] => true
  | [c] => c != '%'
  | c :: d :: rest => if c = '%' then d = '%' && paired rest else paired (d :: rest)

/-- Each pair of percent signs, as one. -/
def unescape : List Char → List Char
  | [] => []
  | [c] => [c]
  | c :: d :: rest => if c = '%' ∧ d = '%' then '%' :: unescape rest else c :: unescape (d :: rest)

/-- There is no percent sign in the token, or only pairs of them. -/
def Literal (tok : String) : Prop := paired tok.toList = true

instance : DecidablePred Literal := fun tok =>
  inferInstanceAs (Decidable (paired tok.toList = true))

/-- The arguments that `tokens` would make, without field codes and with one percent sign for each
pair. -/
structure Expanded (tokens argv : List String) : Prop where
  kept : argv.filter (fun tok => '%' ∉ tok.toList) = tokens.filter fun tok => '%' ∉ tok.toList
  noCode : ∀ tok ∈ argv, ∀ c ∈ codeChars, ¬ ['%', c] <:+: tok.toList
  pairs : ∀ tok ∈ tokens, Literal tok → String.ofList (unescape tok.toList) ∈ argv

/-- A field code is no literal. -/
theorem not_literal_of_isFieldCode {tok : String} (h : isFieldCode tok = true) : ¬ Literal tok := by
  have hmem : tok ∈ ["%f", "%F", "%u", "%U", "%i", "%c", "%k", "%v", "%m"] :=
    List.contains_iff_mem.mp h
  have hall : ∀ tok ∈ ["%f", "%F", "%u", "%U", "%i", "%c", "%k", "%v", "%m"], ¬ Literal tok := by
    decide
  exact hall tok hmem

/-- **What `parse_exec` returns.** Tokens in their order; all of those in which percent signs come
in pairs, as they are; and none that is a field code. -/
theorem parseExec_spec {split : String → Option (List String)} {exec : String}
    {tokens : List String} (h : split exec = some tokens) :
    (parseExec split exec).Sublist tokens ∧
      (parseExec split exec).filter (fun tok => Literal tok) =
        tokens.filter (fun tok => Literal tok) ∧
      ∀ tok ∈ parseExec split exec, isFieldCode tok = false := by
  have hargv : parseExec split exec = tokens.filter fun tok => !isFieldCode tok := by
    rw [parseExec, h]
  rw [hargv]
  refine ⟨List.filter_sublist, ?_, fun tok htok => ?_⟩
  · rw [List.filter_filter]
    refine List.filter_congr fun tok _ => ?_
    cases hcode : isFieldCode tok with
    | true => simp [not_literal_of_isFieldCode hcode]
    | false => simp
  · simpa using (List.mem_filter.mp htok).2

/-- A command line without quotes, as `shlex` splits it. -/
def words (exec : String) : Option (List String) := some (splitNonEmpty ' ' exec)

theorem parseExec_spec_words :
    (parseExec words "foo %U --flag 100%%").filter (fun tok => Literal tok) =
      ["foo", "--flag", "100%%"] := by
  have hsplit : words "foo %U --flag 100%%" = some ["foo", "%U", "--flag", "100%%"] := by decide
  rw [(parseExec_spec hsplit).2.1]
  decide

/-- The program gets `%u`, and two percent signs. -/
theorem not_expanded :
    words "foo --url=%u 100%%" = some ["foo", "--url=%u", "100%%"] ∧
      parseExec words "foo --url=%u 100%%" = ["foo", "--url=%u", "100%%"] ∧
      ¬ ∀ (split : String → Option (List String)) (exec : String) (tokens : List String),
        split exec = some tokens → Expanded tokens (parseExec split exec) := by
  refine ⟨by decide, by decide, fun h => ?_⟩
  have hargv := h words "foo --url=%u 100%%" ["foo", "--url=%u", "100%%"] (by decide)
  exact hargv.noCode "--url=%u" (by decide) 'u' (by decide) ⟨"--url=".toList, [], by decide⟩

end Launcher

end Nullxes
