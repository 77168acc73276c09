import Mathlib.Data.List.Induction
import RustyRouter.Text.Words

/-! The configuration of the router.

It is read from the environment, if all of it is there, and else from the command line of
the kernel, word by word: of several words for one setting the last one counts, and other
words are passed over. The settings' keys are no beginnings of each other, so that it does
not matter which of them is tried first (`parse_spaced`). -/
namespace RustyRouter.Init
open Text

structure RouterConfig where
  wanInterface : List Char
  lanInterface : List Char
  lanIp : List Char
  deriving DecidableEq, Repr

/-- The variables `parsed_wan`, `parsed_lan` and `parsed_lan_ip`. -/
structure ParsedWords where
  wan : Option (List Char)
  lan : Option (List Char)
  lanIp : Option (List Char)
  deriving DecidableEq, Repr

def wanKey : List Char := "rustyrouter.wan=".toList

def lanKey : List Char := "rustyrouter.lan=".toList

def lanIpKey : List Char := "rustyrouter.lan_ip=".toList

/-- One round of the loop over the words. -/
def parseWord (parsed : ParsedWords) (arg : List Char) : ParsedWords :=
  match arg.dropPrefix? wanKey with
  | some val => { parsed with wan := some val }
  | none =>
    match arg.dropPrefix? lanKey with
    | some val => { parsed with lan := some val }
    | none =>
      match arg.dropPrefix? lanIpKey with
      | some val => { parsed with lanIp := some val }
      | none => parsed

def parseWords (words : List (List Char)) : ParsedWords := words.foldl parseWord ⟨none, none, none⟩

/-- `RouterConfig::parse`, with the environment and the command line, if it can be read. -/
def RouterConfig.parse (env : List Char → Option (List Char)) (cmdline : Option (List Char)) : RouterConfig :=
  match env "RUSTYROUTER_WAN".toList, env "RUSTYROUTER_LAN".toList, env "RUSTYROUTER_LAN_IP".toList with
  | some w, some l, some ip => ⟨w, l, ip⟩
  | _, _, _ =>
    let parsed := parseWords ((cmdline.map splitWhitespace).getD [])
    ⟨parsed.wan.getD "eth0".toList, parsed.lan.getD "eth1".toList, parsed.lanIp.getD "192.168.1.1/24".toList⟩

/-! ### The keys -/

theorem dropPrefix_eq_some {text key val : List Char} : text.dropPrefix? key = some val ↔ text = key ++ val := by
  rw [List.dropPrefix?_eq_some_iff]
  simp

/-- The beginnings of one word are beginnings of each other. -/
theorem dropPrefix_eq_none {text key val : List Char} (h : text.dropPrefix? key = some val) (key' : List Char)
    (hkey : ¬ key <+: key') (hkey' : ¬ key' <+: key) : text.dropPrefix? key' = none := by
  cases hval : text.dropPrefix? key' with
  | none => rfl
  | some val' =>
    have hstart : key <+: text := ⟨val, (dropPrefix_eq_some.mp h).symm⟩
    have hstart' : key' <+: text := ⟨val', (dropPrefix_eq_some.mp hval).symm⟩
    exact absurd (List.prefix_or_prefix_of_prefix hstart hstart') (not_or.mpr ⟨hkey, hkey'⟩)

/-! ### The words -/

/-- What the last word with this key sets it to. -/
def lastValue (key : List Char) (words : List (List Char)) : Option (List Char) :=
  (words.filterMap fun word => word.dropPrefix? key).getLast?

theorem lastValue_snoc (key : List Char) (words : List (List Char)) (word : List Char) :
    lastValue key (words ++ [word]) = (word.dropPrefix? key).or (lastValue key words) := by
  cases hval : word.dropPrefix? key <;> simp [lastValue, List.filterMap_append, hval]

/-- A round of the loop takes the value of the one key the word has. -/
theorem parseWord_eq (parsed : ParsedWords) (word : List Char) : parseWord parsed word =
    ⟨(word.dropPrefix? wanKey).or parsed.wan, (word.dropPrefix? lanKey).or parsed.lan,
      (word.dropPrefix? lanIpKey).or parsed.lanIp⟩ := by
  unfold parseWord
  cases hwan : word.dropPrefix? wanKey with
  | some val =>
    rw [dropPrefix_eq_none hwan lanKey (by decide) (by decide),
      dropPrefix_eq_none hwan lanIpKey (by decide) (by decide)]
    rfl
  | none =>
    cases hlan : word.dropPrefix? lanKey with
    | some val =>
      rw [dropPrefix_eq_none hlan lanIpKey (by decide) (by decide)]
      rfl
    | none => cases hlanIp : word.dropPrefix? lanIpKey <;> rfl

theorem parseWords_eq (words : List (List Char)) :
    parseWords words = ⟨lastValue wanKey words, lastValue lanKey words, lastValue lanIpKey words⟩ := by
  induction words using List.reverseRecOn with
  | nil => rfl
  | append_singleton words word ih =>
    rw [parseWords, List.foldl_concat, ← parseWords, ih, parseWord_eq]
    simp only [lastValue_snoc]

/-- Each setting by itself: the last word for it, or the default. -/
def configOf (words : List (List Char)) : RouterConfig :=
  ⟨(lastValue wanKey words).getD "eth0".toList, (lastValue lanKey words).getD "eth1".toList,
    (lastValue lanIpKey words).getD "192.168.1.1/24".toList⟩

/-- Part of the configuration is not in the environment. -/
def EnvLacks (env : List Char → Option (List Char)) : Prop :=
  env "RUSTYROUTER_WAN".toList = none ∨ env "RUSTYROUTER_LAN".toList = none ∨ env "RUSTYROUTER_LAN_IP".toList = none

/-- Then the command line counts, however it is spaced. -/
theorem parse_spaced {env : List Char → Option (List Char)} (henv : EnvLacks env) {words : List (List Char)}
    {text : List Char} (h : Spaced words text) : RouterConfig.parse env (some text) = configOf words := by
  have hwords : parseWords (((some text).map splitWhitespace).getD []) =
      ⟨lastValue wanKey words, lastValue lanKey words, lastValue lanIpKey words⟩ := by
    rw [Option.map_some, Option.getD_some, splitWhitespace_eq_iff.mpr h, parseWords_eq]
  rcases henv with hnone | hnone | hnone
  · simp only [RouterConfig.parse, hnone, hwords]
    rfl
  · simp only [RouterConfig.parse, hnone, hwords]
    split
    · contradiction
    · rfl
  · simp only [RouterConfig.parse, hnone, hwords]
    split
    · contradiction
    · rfl

end RustyRouter.Init
