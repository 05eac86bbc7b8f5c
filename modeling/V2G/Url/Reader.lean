import V2G.Url.Basic

/-!
# Readers of URLs

Which texts are URLs, and how they are written, is for a reader to say that is not part of this
library. What is built and read here takes one as it comes (`Reader`). Where something is read back
that was written, the text of a URL that was read has to be a text of the same URL
(`LawfulReader`).

The reader at hand, `readAscii`, is for hosts in ASCII. A host is left out, and refused, if it holds
a character beyond ASCII or stands for one by its escapes: such a host is to be written in Punycode.
A label in Punycode is taken if it stands for a character beyond ASCII at all, which need not be one
that the name of a host may hold.
-/

namespace V2G.Url

class Reader where
  /-- The URL that a text stands for, `none` where it is a URL of another kind of scheme. -/
  read : String → Except Fault (Option Url)

export Reader (read)

/-- A reader that reads the text of a URL as the same URL. -/
class LawfulReader extends Reader where
  read_text {s : String} {u : Url} : read s = .ok (some u) → read u.text = .ok (some u)

export LawfulReader (read_text)

/-- The reader for hosts in ASCII, where no other is given. -/
instance (priority := low) ascii : Reader := ⟨readAscii⟩

end V2G.Url
