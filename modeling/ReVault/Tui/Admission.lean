import ReVault.Tui.Answers
import ReVault.Tui.Histories

/-!
# Who is answered with what

While the passwords in use tell apart, a peer is sent the vault exactly if the screen shows it as a
recipient when it is answered; every other peer is refused. What it is sent brings its replica up
to date, unless a change is still to be recorded.
-/

namespace ReVault

open Foundation Primitives

variable [Primitives]

namespace Tui

variable {SocketAddr : Type} [SocketAddress SocketAddr]

namespace Host

section

variable [Lawful] {passwords : List String} (apart : PasswordsApart passwords)
  {text : VaultError → String} (start : Environment SocketAddr) (dir : Path) (identity : Identity)
  {disk : FileSystem} (kept : FilesKept passwords disk) {happenings : List (Happening SocketAddr)}
  (permitted : App.Permitted passwords (inputs text happenings (new start dir identity disk))
    (App.new start dir identity disk, disk))

include apart kept permitted

end

end Host

end Tui

end ReVault

namespace ReVault.Tui

end ReVault.Tui

namespace ReVault.Transparent

open Foundation Primitives Tui

end ReVault.Transparent
