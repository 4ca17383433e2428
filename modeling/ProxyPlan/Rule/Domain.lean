/-
ProxyPlan.Rule.Domain — rules for domain names.

A name is compared in its normal form: without white space around it and dots
at its end, Latin letters in lower case. A suffix matches a name that it is
equal to or that ends with a dot and the suffix, which is to say that its
labels are the last labels of the name.

A rule may also be a pattern. Patterns are a matter of their own, so the rules
take what reads and searches them as given (`Patterns`). Nothing is assumed of
it, and whatever is said about rules holds with any; `Pattern.engine` is the
one to run them with.
-/
import ProxyPlan.Text.Ascii
import ProxyPlan.Text.Blank

namespace ProxyPlan.Rule

/-! ## Normal forms -/

/-- The normal form of a domain name. -/
def normalList (cs : List Char) : List Char :=
  (Text.dropEndWhile (· = '.') (Text.trimList cs)).map Text.lowerChar

/-- The normal form of a domain name. -/
def normalize (domain : String) : String :=
  String.ofList (normalList domain.toList)

/-- The normal form of a suffix, which may be written with dots before it. -/
def normalSuffix (suffix : String) : List Char :=
  (normalList suffix.toList).dropWhile (· = '.')

/-! ## Suffixes and categories -/

/-- The suffix is the name itself or is set off from the rest by a dot. -/
def matchesSuffix (domain suffix : String) : Bool :=
  let tail := normalSuffix suffix
  !tail.isEmpty && (domain.toList == tail || ('.' :: tail).isSuffixOf domain.toList)

/-- Well-known categories and some domains of each. -/
def categories : List (String × List String) :=
  [("google", ["google.com", "googleapis.com", "gstatic.com", "googlevideo.com", "youtube.com",
      "ytimg.com", "gmail.com", "android.com"]),
   ("youtube", ["youtube.com", "ytimg.com", "googlevideo.com", "youtu.be"]),
   ("facebook", ["facebook.com", "fbcdn.net", "instagram.com", "whatsapp.com",
      "messenger.com"]),
   ("twitter", ["twitter.com", "x.com", "twimg.com", "t.co"]),
   ("telegram", ["telegram.org", "t.me", "telegram.me", "tdesktop.com"]),
   ("netflix", ["netflix.com", "nflxvideo.net", "nflximg.net", "nflxext.com"]),
   ("github", ["github.com", "githubusercontent.com", "github.io", "githubassets.com"]),
   ("openai", ["openai.com", "chatgpt.com", "oaistatic.com", "oaiusercontent.com"]),
   ("apple", ["apple.com", "icloud.com", "mzstatic.com", "cdn-apple.com"]),
   ("microsoft", ["microsoft.com", "live.com", "office.com", "windows.net", "bing.com"]),
   ("cn", ["cn", "baidu.com", "qq.com", "taobao.com", "tmall.com", "jd.com", "weibo.com",
      "bilibili.com", "163.com"]),
   ("ir", ["ir", "aparat.com", "digikala.com", "divar.ir"]),
   ("ru", ["ru", "yandex.ru", "vk.com", "mail.ru"]),
   ("category-ads", ["doubleclick.net", "googlesyndication.com", "googleadservices.com"]),
   ("category-ads-all", ["doubleclick.net", "googlesyndication.com", "googleadservices.com",
      "adnxs.com", "adsrvr.org"]),
   ("private", ["localhost", "local", "lan", "internal"])]

/-- The domains of a category, if it is one of the well-known ones. -/
def categoryDomains? (name : String) : Option (List String) :=
  categories.lookup (Text.lower (Text.trim name))

/-- A domain in normal form belongs to a category. -/
def inCategory (name domain : String) : Bool :=
  ((categoryDomains? name).getD []).any (matchesSuffix domain)

/-! ## Rules -/

/-- What a rule for domains asks for. -/
inductive DomainRule where
  | pattern (text : String)
  | suffix (text : String)
  | exact (text : String)
  | keyword (text : String)
  | category (name : String)
deriving DecidableEq

/-- The kinds of rules with the words they begin with. -/
def DomainRule.starts : List (String × (String → DomainRule)) :=
  [("regexp:", .pattern), ("domain:", .suffix), ("full:", .exact), ("keyword:", .keyword),
   ("geosite:", .category)]

/-- The rule of a text; one that begins with none of the words is a suffix. -/
def DomainRule.ofText (rule : String) : DomainRule :=
  let cs := Text.trimList rule.toList
  let found := starts.findSome? fun (start, make) =>
    (start.toList.isPrefixOf? cs).map fun rest => make (String.ofList rest)
  found.getD (.suffix (String.ofList cs))

/-- What patterns are, and where they match. -/
class Patterns where
  /-- The test that a text stands for, if it is a pattern. -/
  test? (text : String) : Option (String → Bool)

/-- No text is a pattern. -/
abbrev Patterns.empty : Patterns where
  test? _ := none

/-- A rule matches a domain in normal form. What is no pattern matches nothing. -/
def DomainRule.holds [Patterns] (domain : String) : DomainRule → Bool
  | .pattern text =>
    match Patterns.test? text with
    | some test => test domain
    | none => false
  | .suffix text => matchesSuffix domain text
  | .exact text => domain == normalize text
  | .keyword text =>
    let word := normalList text.toList
    !word.isEmpty && Text.occursIn word domain.toList
  | .category name => inCategory name domain

/-- A rule matches a domain. No rule matches an empty one. -/
def matchesDomain [Patterns] (rule domain : String) : Bool :=
  let domain := normalize domain
  !domain.isEmpty && (DomainRule.ofText rule).holds domain

end ProxyPlan.Rule
