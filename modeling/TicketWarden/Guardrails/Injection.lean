/- Module: TicketWarden/Guardrails/Injection
   source: apps/api/src/guardrails/injection.py
   digest: The scored injection scan, the quarantine of tool output and the outbound
   leak patterns. -/

import TicketWarden.Constants

set_option autoImplicit false
set_option relaxedAutoImplicit false

namespace TicketWarden.Guardrails

open Patterns Python

/-- `_INVISIBLE_CHARS`: zero-width characters, the soft hyphen and the bidi controls. -/
def invisibleChars : Regex Char :=
  .cls fun c =>
    [0x200B, 0x200C, 0x200D, 0x2060, 0xFEFF, 0xAD, 0x200E, 0x200F].contains c.toNat ||
      (0x202A ≤ c.toNat && c.toNat ≤ 0x202E) || (0x2066 ≤ c.toNat && c.toNat ≤ 0x2069)

structure Signal where
  label : String
  weight : ℕ
  pattern : Regex Char

section

variable (db : Runtime)

def highSignals : List Signal :=
  [⟨"override_instructions", 3,
      cat [wordEdge db, words ["ignore", "disregard"], gap db, opt (cat [word "all", gap db]),
        words ["previous", "prior", "above", "earlier"], gap db,
        words ["instructions", "context"]]⟩,
    ⟨"forget_instructions", 3,
      cat [wordEdge db, word "forget", gap db, words ["everything", "all", "your"], gap db,
        opt (words ["instructions", "rules", "prompt"])]⟩,
    ⟨"exfiltrate_prompt", 3,
      cat [words ["reveal", "show", "print", "repeat", "expose", "leak", "output", "display"],
        gap db, opt (cat [word "me", gap db]), opt (cat [word "your", gap db]),
        opt (cat [word "the", gap db]),
        oneOf [cat [word "system", gap db, word "prompt"],
          cat [word "initial", gap db, word "prompt"], word "instructions",
          cat [word "api", gap db, word "key"], word "secret", word "credentials"]]⟩,
    ⟨"role_tag_smuggling", 3,
      cat [lit "<", opt (lit "/"), words ["system", "assistant", "user"], lit ">"]⟩,
    ⟨"special_token_smuggling", 3,
      cat [lit "<|", plus (.cls fun c => (caseFold c).isLower || c == '_'), lit "|>"]⟩,
    ⟨"chat_template_smuggling", 3,
      cat [lit "[", opt (lit "/"), words ["inst", "sys", "system"], lit "]"]⟩,
    ⟨"code_fence_role_smuggling", 3,
      cat [times 3 (.cls fun c => c.toNat == 0x60), lazyStar (.cls fun _ => true),
        words ["system", "assistant"], star (space db), lit ":"]⟩,
    ⟨"jailbreak_persona", 3,
      cat [wordEdge db,
        oneOf [cat [word "developer", gap db, word "mode"], word "jailbreak",
          cat [word "dan", wordEdge db, opt (cat [gap db, word "mode"])],
          cat [word "do", gap db, word "anything", gap db, word "now"]], wordEdge db]⟩,
    ⟨"privilege_escalation", 3,
      cat [wordEdge db, words ["admin", "root", "sudo", "superuser"], gap db,
        words ["mode", "access", "override"], wordEdge db]⟩,
    ⟨"tool_coercion", 3,
      cat [wordEdge db, word "call", gap db, opt (cat [word "the", gap db]), word "tool", gap db,
        opt (among "'\""), plus (wordChar db), opt (among "'\""), gap db, word "with",
        wordEdge db]⟩,
    ⟨"encoded_payload", 3,
      cat [wordEdge db, word "base64", star (space db), oneOf [word "decode", lit ":"],
        star (space db),
        atLeast 16 (.cls fun c => (caseFold c).isAlphanum || "+/=".toList.contains c)]⟩,
    ⟨"execute_coercion", 3,
      cat [wordEdge db, word "execute", gap db,
        oneOf [word "this", cat [word "the", gap db, word "following"]], gap db,
        words ["code", "command", "instruction"]]⟩,
    ⟨"echo_coercion", 3,
      cat [wordEdge db, words ["repeat", "echo", "say"], gap db,
        oneOf [word "everything", word "all", cat [word "the", gap db, word "text"]], gap db,
        words ["above", "before"]]⟩,
    ⟨"translate_coercion", 3,
      cat [wordEdge db, word "translate", gap db,
        oneOf [word "everything", cat [word "the", gap db, word "text"]], gap db, word "above",
        wordEdge db]⟩,
    ⟨"persistent_reframe", 3,
      cat [wordEdge db, word "from", gap db, word "now", gap db, word "on", gap db, word "you",
        gap db, words ["are", "will", "must"], wordEdge db]⟩]

def mediumSignals : List Signal :=
  [⟨"persona_hijack", 2,
      cat [wordEdge db, word "you", gap db, word "are", gap db, word "now", gap db,
        words ["a", "an", "the"], wordEdge db]⟩,
    ⟨"roleplay_coercion", 2,
      cat [wordEdge db,
        oneOf [cat [word "act", gap db, word "as", gap db, words ["a", "an", "if"]],
          cat [word "pretend", gap db,
            oneOf [cat [word "to", gap db, word "be"], cat [word "you", gap db, word "are"]]]],
        wordEdge db]⟩,
    ⟨"new_rules", 2,
      cat [wordEdge db, word "new", gap db,
        oneOf [word "instructions", cat [word "system", gap db, word "prompt"], word "rules"],
        wordEdge db]⟩,
    ⟨"safety_override", 2,
      cat [wordEdge db, word "override", gap db, words ["your", "the", "all"], gap db,
        words ["instructions", "rules", "safety", "guardrails"]]⟩,
    ⟨"identity_suppression", 2,
      cat [wordEdge db, word "stop", gap db, word "being", gap db, words ["a", "an"],
        wordEdge db]⟩]

def lowSignals : List Signal :=
  [⟨"prompt_probing", 1,
      cat [wordEdge db, word "what", gap db, words ["are", "were"], gap db, word "your", gap db,
        oneOf [word "instructions", word "rules", cat [word "system", gap db, word "prompt"]]]⟩,
    ⟨"hypothetical_framing", 1,
      cat [wordEdge db, word "hypothetically", gap db, word "you", gap db,
        words ["are", "could", "can"], wordEdge db]⟩]

def allSignals : List Signal := highSignals db ++ mediumSignals db ++ lowSignals db

def refuseThreshold : ℕ := 3

/-- `_LEAK_PATTERNS`, each with its text. -/
def leakPatterns : List (String × Regex Char) :=
  [("\\bmy\\s+(system\\s+prompt|instructions)\\s+(is|are|say)",
      cat [wordEdge db, word "my", gap db,
        oneOf [cat [word "system", gap db, word "prompt"], word "instructions"], gap db,
        words ["is", "are", "say"]]),
    ("\\bI\\s+(was|am)\\s+(told|instructed|programmed)\\s+to\\b",
      cat [wordEdge db, word "i", gap db, words ["was", "am"], gap db,
        words ["told", "instructed", "programmed"], gap db, word "to", wordEdge db]),
    ("\\bas\\s+an?\\s+AI\\s+(language\\s+)?model,?\\s+my\\s+instructions\\b",
      cat [wordEdge db, word "as", gap db, word "a", opt (word "n"), gap db, word "ai", gap db,
        opt (cat [word "language", gap db]), word "model", opt (lit ","), gap db, word "my",
        gap db, word "instructions", wordEdge db]),
    ("</?(system|assistant)>",
      cat [lit "<", opt (lit "/"), words ["system", "assistant"], lit ">"]),
    ("<\\|[a-z_]+\\|>",
      cat [lit "<|", plus (.cls fun c => (caseFold c).isLower || c == '_'), lit "|>"]),
    ("\\b(api[_\\s]?key|secret[_\\s]?key|password)\\s*[:=]\\s*\\S+",
      cat [wordEdge db,
        oneOf [cat [word "api", opt (.cls fun c => c == '_' || db.isSpace c), word "key"],
          cat [word "secret", opt (.cls fun c => c == '_' || db.isSpace c), word "key"],
          word "password"],
        star (space db), among ":=", star (space db), plus (nonSpace db)])]

def normalize (text : List Char) : List Char :=
  if text = [] then [] else invisibleChars.sub [] (db.nfkc text)

/-- `_risk_score`: the weights and the labels of all signals that match somewhere. -/
def riskScore (text : List Char) : ℕ × List String :=
  let matched := (allSignals db).filter fun signal => signal.pattern.search text
  ((matched.map Signal.weight).sum, matched.map Signal.label)

/-- `detect_injection`: whether to refuse, and which signals fired. -/
def detectInjection (text : String) : Bool × Option String :=
  if text = "" then (false, none)
  else
    let (score, matched) := riskScore db (normalize db text.toList)
    if refuseThreshold ≤ score then
      (true, some ("risk_score=" ++ Nat.repr score ++ " signals=" ++ ",".intercalate matched))
    else (false, none)

def isInjection (text : String) : Bool := (detectInjection db text).1

def quarantineMarker : String := "[QUARANTINED: injection signal in external data]"

/-- The `RecursionError` of a call for which the stack has no room. -/
def stackError : Exc := ⟨"RecursionError", db.stackMessage⟩

/-- The frames of `is_injection`: its own, that of `detect_injection`, and those of `normalize`
and `_risk_score` with the built-in functions they call. -/
def injectionFrames (text : String) : ℕ := if text = "" then 2 else 3 + db.builtinFrames

/-- `_clean` of a value that is no text and has no parts. -/
def cleanPlain (frames : ℕ) (value : Json) : Except Exc (Bool × Json) :=
  if frames < 1 + db.builtinFrames then .error (stackError db) else .ok (false, value)

/-- `_clean` with so many frames left on the stack: whether a string was flagged, and the value
with flagged strings replaced. A comprehension has a frame of its own. -/
def cleanWithin : ℕ → Json → Except Exc (Bool × Json)
  | frames, .str s =>
    if frames < 1 + injectionFrames db s then .error (stackError db)
    else if isInjection db s then .ok (true, .str quarantineMarker)
    else .ok (false, .str s)
  | frames + 2, .dict entries => do
    let cleaned ← entries.mapM fun entry => do
      let (flagged, v) ← cleanWithin frames entry.2
      pure (flagged, (entry.1, v))
    pure (cleaned.any Prod.fst, .dict (cleaned.map Prod.snd))
  | frames + 2, .list xs => do
    let cleaned ← xs.mapM fun v => cleanWithin frames v
    pure (cleaned.any Prod.fst, .list (cleaned.map Prod.snd))
  | _, .dict _ => .error (stackError db)
  | _, .list _ => .error (stackError db)
  | frames, .null => cleanPlain db frames .null
  | frames, .bool b => cleanPlain db frames (.bool b)
  | frames, .int n => cleanPlain db frames (.int n)
  | frames, .float x => cleanPlain db frames (.float x)

/-- `scan_tool_result`. -/
def scanToolResult (result : Json) : Except Exc (Bool × Json) :=
  cleanWithin db db.stackFrames result

/-- `detect_prompt_leak`: whether a drafted reply leaks, and the text of the first pattern it
matches. -/
def detectPromptLeak (text : Option String) : Bool × Option String :=
  match text with
  | none => (false, none)
  | some text =>
    if text = "" then (false, none)
    else
      let cleaned := normalize db text.toList
      match (leakPatterns db).find? fun entry => entry.2.search cleaned with
      | some entry => (true, some entry.1)
      | none => (false, none)

end

end TicketWarden.Guardrails
