import Hwfa.ConversationInbound
import Hwfa.Regex

/-!
The on-device scam detector (`packages/client/src/scam/detector.ts`): weighted patterns for
each category, and amplifiers that raise the category that scored most.

The patterns are JavaScript's, without regard to case and without the `u` flag: letters
outside ASCII have no case and are no part of a word.  Weights are counted in hundredths.
No two sums of them that the code compares, and no sum and the threshold, are so near to
each other that the rounding of the doubles could matter.
-/

namespace Hwfa.ScamDetector

open Hwfa.Json Hwfa.ConversationStore Hwfa.Regex

/-! ### Patterns -/

def isUpper (u : UInt16) : Bool := unit 'A' ≤ u && u ≤ unit 'Z'

def lower (u : UInt16) : UInt16 := if isUpper u then u + 32 else u

/-- What JavaScript takes for a part of a word. -/
def isWord (u : UInt16) : Bool :=
  let u := lower u
  (unit 'a' ≤ u && u ≤ unit 'z') || isDigit u || u = unit '_'

/-- The text itself, in capitals or not. -/
def lit (t : String) : Pattern UInt16 :=
  inOrder ((utf16 t).map fun u => .letter fun v => lower v = lower u)

instance : Coe String (Pattern UInt16) := ⟨lit⟩

def b : Pattern UInt16 := .boundary
def space : Pattern UInt16 := .letter ConversationInbound.isSpace
def notSpace : Pattern UInt16 := .letter fun u => ! ConversationInbound.isSpace u
def digit : Pattern UInt16 := .letter isDigit

/-- A dot is no line end. -/
def any : Pattern UInt16 := .letter fun u => u ∉ [10, 13, 0x2028, 0x2029]

/-- At most so many letters of one line. -/
def gap (n : Nat) : Pattern UInt16 := .times any 0 n

/-- One of the words, on its own. -/
def word (words : List (Pattern UInt16)) : Pattern UInt16 := inOrder [b, oneOf words, b]

/-! ### Signals -/

inductive ScamCategory where
  | advance_fee
  | investment_fraud
  | romance
  | job_offer
  | impersonation
  | phishing
  | lottery
  | otp_solicitation
  | deepfake
  | rental_escrow
  deriving DecidableEq

def ScamCategory.text : ScamCategory → Text
  | .advance_fee => utf16 "advance_fee"
  | .investment_fraud => utf16 "investment_fraud"
  | .romance => utf16 "romance"
  | .job_offer => utf16 "job_offer"
  | .impersonation => utf16 "impersonation"
  | .phishing => utf16 "phishing"
  | .lottery => utf16 "lottery"
  | .otp_solicitation => utf16 "otp_solicitation"
  | .deepfake => utf16 "deepfake"
  | .rental_escrow => utf16 "rental_escrow"

def HEURISTIC_MODEL_VERSION : Text := utf16 "heuristic-0"

/-- The score from which a message is flagged. -/
def FLAG_THRESHOLD : Nat := 50

structure Signal where
  category : ScamCategory
  weight : Nat
  pattern : Pattern UInt16

def STRONG : Nat := 55
def WEAK : Nat := 30

def SIGNALS : List Signal :=
  [
    -- Advance-fee / 419
    ⟨.advance_fee, STRONG, inOrder [word ["next of kin", "beneficiary", "inheritance", "estate"],
      gap 60, word ["fund", "money", "million", "transfer", "claim"]]⟩,
    ⟨.advance_fee, STRONG, inOrder [b, oneOf ["clearance", "processing", "release", "transfer"],
      .many space, "fee", b]⟩,
    ⟨.advance_fee, WEAK, word ["barrister", inOrder ["late ", oneOf ["mr", "mrs"]],
      "deceased client", inOrder ["unclaimed ", oneOf ["fund", "deposit"]]]⟩,
    -- Investment / crypto fraud
    ⟨.investment_fraud, STRONG, inOrder [word ["guaranteed", inOrder ["guarantee",
      optional (oneOf ["d", "s"])]], gap 25, word [inOrder ["return", optional "s"], "profit",
      "roi"]]⟩,
    ⟨.investment_fraud, STRONG, inOrder [word ["double", "triple", inOrder [.times digit 2 2,
      optional space, "%"]], gap 25, b, optional "your ", oneOf ["money", "investment",
      inOrder ["return", optional "s"], "profit"], b]⟩,
    ⟨.investment_fraud, WEAK, inOrder [word ["crypto", "bitcoin", "forex", "trading platform"],
      gap 25, word ["opportunity", "invest", inOrder ["signal", optional "s"], "profit"]]⟩,
    -- Romance (requires a financial ask to flag — avoids flagging affection)
    ⟨.romance, STRONG, inOrder [word ["stuck", "stranded"], gap 30, word ["abroad", "overseas",
      "airport", "hospital"]]⟩,
    ⟨.romance, STRONG, inOrder [word ["need"], gap 25, word ["money", inOrder ["fund",
      optional "s"], "help"], gap 25, word ["flight", "ticket", "visa", "customs", "surgery"]]⟩,
    -- Job offer scams
    ⟨.job_offer, STRONG, inOrder [b, oneOf ["registration", "training", "equipment", "starter"],
      .many space, "fee", b]⟩,
    ⟨.job_offer, WEAK, inOrder [word ["work from home", inOrder ["part", oneOf ["-", " "],
      "time"]], gap 30, word ["earn", "$", "per day", "daily", "weekly"]]⟩,
    ⟨.job_offer, WEAK, inOrder [b, "no experience ", oneOf ["needed", "required"], b, gap 30,
      word ["earn", "$", "income"]]⟩,
    -- Impersonation (bank / agency / tech / family emergency)
    ⟨.impersonation, STRONG, inOrder [b, optional "your ", oneOf ["account", "card"], b, gap 25,
      word ["suspended", "locked", "compromised", "blocked", "frozen"]]⟩,
    ⟨.impersonation, WEAK, inOrder [word ["microsoft", "apple", "amazon", "irs", "hmrc",
      "social security"], gap 30, word ["support", "refund", "verify", "agent"]]⟩,
    -- Phishing links
    ⟨.phishing, STRONG, inOrder [word ["verify", "confirm", "update", "reactivate"], gap 30,
      word ["account", "password", "details", "identity"], gap 30, oneOf [inOrder ["http",
      optional "s", "://"], "www.", "bit.ly", "tinyurl"]]⟩,
    ⟨.phishing, WEAK, inOrder [b, oneOf ["bit.ly", "tinyurl", "t.co"], "/", .many notSpace]⟩,
    ⟨.phishing, WEAK, inOrder [b, "click ", oneOf ["here", "the link"], b, gap 25, word ["verify",
      "login", "log in", "confirm", "claim"]]⟩,
    -- Lottery / prize
    ⟨.lottery, STRONG, inOrder [word [inOrder ["you", oneOf ["'", " ha"], "ve won"],
      "congratulations"], gap 40, b, oneOf ["prize", "lottery", "winner", "award",
      inOrder [optional "$", digit]]]⟩,
    ⟨.lottery, WEAK, inOrder [word ["claim", "collect"], gap 20, b, optional "your ",
      oneOf ["prize", "reward", "winnings"], b]⟩,
    -- OTP / credential solicitation
    ⟨.otp_solicitation, STRONG, inOrder [word ["otp", inOrder ["one", oneOf ["-", " "], "time ",
      oneOf ["code", "password", "pin"]], "verification code", "security code", "2fa code"],
      gap 30, b, oneOf ["share", "send", "read", "tell", "give", "forward", "what"]]⟩,
    -- Verb-first: require a *qualified* code word — bare "code" (e.g. "code
    -- snippet") is too ambiguous and caused false positives.
    ⟨.otp_solicitation, STRONG, inOrder [word ["share", "send", "tell", "read", "forward",
      "give"], gap 20, b, optional (oneOf ["the ", "your "]), oneOf ["otp", "verification code",
      "security code", inOrder ["one", oneOf ["-", " "], "time ", oneOf ["code", "pin",
      "password"]], "2fa code", "pin", "password"], b]⟩,
    -- Rental / escrow
    ⟨.rental_escrow, STRONG, inOrder [word ["deposit", "wire", "western union", "money order"],
      gap 30, word ["before", "to secure", "to reserve", "to hold"], gap 20, word ["apartment",
      "room", "property", "rental", inOrder ["key", optional "s"]]]⟩,
    ⟨.rental_escrow, WEAK, inOrder [word ["landlord", "owner", "agent"], gap 30, word ["abroad",
      "overseas", inOrder ["out of ", optional "the ", "country"]]]⟩
  ]

/-- They add to whichever category matched. -/
def AMPLIFIERS : List (Pattern UInt16) :=
  [
    word [inOrder ["urgent", optional "ly"], "immediately", "right now", "act now",
      inOrder ["within ", .many digit, " ", oneOf [inOrder ["hour", optional "s"],
      inOrder ["minute", optional "s"]]], inOrder ["before it", optional "'", "s too late"]],
    word ["gift card", "itunes card", "steam card", "western union", "moneygram", "wire transfer",
      "bitcoin", "usdt", "crypto wallet"],
    word [inOrder ["don", optional "'", "t tell"], inOrder ["keep ", oneOf ["this", "it"], " ",
      oneOf ["secret", "confidential", "between us"]], "do not share this"]
  ]

def AMPLIFIER_BONUS : Nat := 15

/-! ### The verdict -/

/-- The weight of each category that matched, in the order in which they first did. -/
def scores (text : Text) : List (ScamCategory × Nat) :=
  SIGNALS.foldl (fun scores signal =>
    if signal.pattern.test isWord text then
      match scores.findIdx? fun entry => entry.1 = signal.category with
      | some i => scores.modify i fun entry => (entry.1, entry.2 + signal.weight)
      | none => scores ++ [(signal.category, signal.weight)]
    else scores) []

/-- The first category with the highest score. -/
def top (scores : List (ScamCategory × Nat)) : Option ScamCategory × Nat :=
  scores.foldl (fun best entry => if best.2 < entry.2 then (some entry.1, entry.2) else best)
    (none, 0)

/-- How many amplifiers the text has. -/
def amplifiers (text : Text) : Nat := AMPLIFIERS.countP fun p => p.test isWord text

def empty : ScamVerdict where
  flagged := false
  category := none
  score := .finite 0
  modelVersion := HEURISTIC_MODEL_VERSION

def analyze (text : Text) : ScamVerdict :=
  if text = [] then empty
  else
    let scores := scores text
    if scores = [] then empty
    else
      let (topCategory, topScore) := top scores
      let score := min 100 (topScore + amplifiers text * AMPLIFIER_BONUS)
      { flagged := FLAG_THRESHOLD ≤ score
        category := topCategory.map ScamCategory.text
        score := .ofDecimal false score (-2)
        modelVersion := HEURISTIC_MODEL_VERSION }

end Hwfa.ScamDetector
