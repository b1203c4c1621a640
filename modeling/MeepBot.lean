import MeepBot.Properties.Arguments
import MeepBot.Properties.Buffer
import MeepBot.Properties.Calls
import MeepBot.Properties.Changes
import MeepBot.Properties.Database
import MeepBot.Properties.Descriptors
import MeepBot.Properties.Dice
import MeepBot.Properties.Dispatch
import MeepBot.Properties.Echo
import MeepBot.Properties.Framing
import MeepBot.Properties.Generator
import MeepBot.Properties.Handling
import MeepBot.Properties.HelpListing
import MeepBot.Properties.Injection
import MeepBot.Properties.Known
import MeepBot.Properties.Leaving
import MeepBot.Properties.Loading
import MeepBot.Properties.LoginGrant
import MeepBot.Properties.Membership
import MeepBot.Properties.Privacy
import MeepBot.Properties.Privilege
import MeepBot.Properties.Protection
import MeepBot.Properties.QuoteHistory
import MeepBot.Properties.QuoteNumbers
import MeepBot.Properties.Ranks
import MeepBot.Properties.Receiving
import MeepBot.Properties.Reencoding
import MeepBot.Properties.Registration
import MeepBot.Properties.Replies
import MeepBot.Properties.Resolving
import MeepBot.Properties.Rolls
import MeepBot.Properties.RunningScripts
import MeepBot.Properties.Searching
import MeepBot.Properties.Sending
import MeepBot.Properties.Setters
import MeepBot.Properties.Silence
import MeepBot.Properties.Streams
import MeepBot.Properties.Warnings
import MeepBot.Process
import MeepBot.Properties.Lifetime
import MeepBot.Properties.Shutdown
