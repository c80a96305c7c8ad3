import XChaty.Client.Sendings
import XChaty.System.Harm
import XChaty.System.Logins

/-! The server among the programs of the repository only: chat windows, and start-up windows that log
in and register.  A user object is never given an id, and the id is what `LoginCheck` looks up; so
whoever logs in, the server executes one and the same statement, which SQLite cannot parse, and as
long as its database can be opened no login ends it. -/

namespace XChaty.System

open Qt Protoc ProofKit Chat Hv Server Client

namespace Programs

/-! ### What a segment asks for -/

variable {hio_id : Link → Nat} {Db : Type} (host : Host Db)

end Programs

end XChaty.System
