import HostDecl.Text.Basic

/-!
# Aliases

Host types that have a fixed TypeScript text, by qualified name.
-/

namespace HostDecl.TypeScript

/-- The aliases, in the order in which they are listed. -/
def aliases : List (String × String) :=
  [("io.vertx.core.Closeable",
     "(completionHandler: ((res: AsyncResult<void>) => void) | Handler<AsyncResult<void>>) => void"),
   ("java.lang.CharSequence", "string"),
   ("java.lang.Iterable<java.lang.String>", "string[]"),
   ("java.lang.Iterable<java.lang.CharSequence>", "string[]"),
   ("java.lang.Boolean[]", "boolean[]"),
   ("java.lang.Double[]", "number[]"),
   ("java.lang.Float[]", "number[]"),
   ("java.lang.Integer[]", "number[]"),
   ("java.lang.Long[]", "number[]"),
   ("java.lang.Short[]", "number[]"),
   ("java.lang.String[]", "string[]"),
   ("java.time.Instant", "Date"),
   ("java.time.LocalDate", "Date"),
   ("java.time.LocalDateTime", "Date"),
   ("java.time.ZonedDateTime", "Date")]

/-- The text of an aliased host type. A name with half of a surrogate pair in it has no alias. -/
def alias? (name : Text) : Option String := name.string?.bind fun name => aliases.lookup name

end HostDecl.TypeScript
