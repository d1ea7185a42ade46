import Worksheet.Text.Word

/-!
# Phone Numbers and E-Mail Addresses

The two shapes of text that a rule can ask for.

A phone number is eleven digits of which the first is not zero. An e-mail
address is words joined by single separators, an at sign, and again words
joined by single separators, at least one of them a point. Since no separator
is a word character, one pass that remembers whether it is inside a word
decides each half.

## Main definitions

* `isPhone`, `isEmail`: The two shapes.
* `isChain`: Words joined by single separators.
-/

namespace Worksheet

namespace Shape

/-- A digit from one to nine and then ten digits of any script. -/
def isPhone : List Char → Bool
  | [] => false
  | c :: cs => '1' ≤ c && c ≤ '9' && cs.length == 10 && cs.all Text.isDecimal

/-- Words joined by single separators, given whether a word has begun. -/
def isChainFrom (separates : Char → Bool) (inWord : Bool) : List Char → Bool
  | [] => inWord
  | c :: cs =>
    if Text.isWord c then isChainFrom separates true cs
    else inWord && separates c && isChainFrom separates false cs

/-- At least one word, and single separators between words. -/
def isChain (separates : Char → Bool) (cs : List Char) : Bool :=
  isChainFrom separates false cs

/-- A chain of words, an at sign, and a chain of words with a point in it. -/
def isEmail (cs : List Char) : Bool :=
  let user := cs.takeWhile (· != '@')
  match cs.dropWhile (· != '@') with
  | _ :: host =>
    isChain (fun c => c == '-' || c == '+' || c == '.') user &&
      isChain (fun c => c == '-' || c == '.') host && host.contains '.'
  | [] => false

end Shape

end Worksheet
