import Shortcode.Text.Basic

/-!
# Locales

A locale gives the names of the days and months, of the halves of the day, and the
usual formats of dates and times in the format language of
`Shortcode.Calendar.Format`. It is called by a language and a country, joined by
`_` or `-`; a character set or a variant behind the name does not matter.
-/

namespace Shortcode.Calendar

/-- The names and formats of a language in a country. Weeks start with Sunday
    here. -/
structure Locale where
  dateFormat : String
  dateTimeFormat : String
  timeFormat : String
  /-- The format of a time with the half of the day, empty if there is none. -/
  halfDayFormat : String
  decimalPoint : String
  /-- The names of the first and the second half of the day. -/
  halves : String × String
  /-- The same names in lower case. -/
  smallHalves : String × String
  shortDays : List String
  days : List String
  shortMonths : List String
  months : List String

/-- The names used where no locale is given. -/
def Locale.posix : Locale where
  dateFormat := "%m/%d/%y"
  dateTimeFormat := "%a %b %e %H:%M:%S %Y"
  timeFormat := "%H:%M:%S"
  halfDayFormat := "%I:%M:%S %p"
  decimalPoint := "."
  halves := ("AM", "PM")
  smallHalves := ("am", "pm")
  shortDays := ["Sun", "Mon", "Tue", "Wed", "Thu", "Fri", "Sat"]
  days := ["Sunday", "Monday", "Tuesday", "Wednesday", "Thursday", "Friday", "Saturday"]
  shortMonths := ["Jan", "Feb", "Mar", "Apr", "May", "Jun", "Jul", "Aug", "Sep", "Oct", "Nov", "Dec"]
  months := ["January", "February", "March", "April", "May", "June", "July", "August", "September",
    "October", "November", "December"]

/-- The names of the locale `en_US`. -/
def Locale.enUS : Locale where
  dateFormat := "%m/%d/%Y"
  dateTimeFormat := "%a %d %b %Y %I:%M:%S %p %Z"
  timeFormat := "%I:%M:%S %p"
  halfDayFormat := "%I:%M:%S %p"
  decimalPoint := "."
  halves := ("AM", "PM")
  smallHalves := ("am", "pm")
  shortDays := ["Sun", "Mon", "Tue", "Wed", "Thu", "Fri", "Sat"]
  days := ["Sunday", "Monday", "Tuesday", "Wednesday", "Thursday", "Friday", "Saturday"]
  shortMonths := ["Jan", "Feb", "Mar", "Apr", "May", "Jun", "Jul", "Aug", "Sep", "Oct", "Nov", "Dec"]
  months := ["January", "February", "March", "April", "May", "June", "July", "August", "September",
    "October", "November", "December"]

/-- The names of the locale `en_GB`. -/
def Locale.enGB : Locale where
  dateFormat := "%d/%m/%y"
  dateTimeFormat := "%a %d %b %Y %T %Z"
  timeFormat := "%T"
  halfDayFormat := "%l:%M:%S %P %Z"
  decimalPoint := "."
  halves := ("am", "pm")
  smallHalves := ("am", "pm")
  shortDays := ["Sun", "Mon", "Tue", "Wed", "Thu", "Fri", "Sat"]
  days := ["Sunday", "Monday", "Tuesday", "Wednesday", "Thursday", "Friday", "Saturday"]
  shortMonths := ["Jan", "Feb", "Mar", "Apr", "May", "Jun", "Jul", "Aug", "Sep", "Oct", "Nov", "Dec"]
  months := ["January", "February", "March", "April", "May", "June", "July", "August", "September",
    "October", "November", "December"]

/-- The names of the locale `de_DE`. -/
def Locale.deDE : Locale where
  dateFormat := "%d.%m.%Y"
  dateTimeFormat := "%a %d %b %Y %T %Z"
  timeFormat := "%T"
  halfDayFormat := ""
  decimalPoint := ","
  halves := ("", "")
  smallHalves := ("", "")
  shortDays := ["So", "Mo", "Di", "Mi", "Do", "Fr", "Sa"]
  days := ["Sonntag", "Montag", "Dienstag", "Mittwoch", "Donnerstag", "Freitag", "Samstag"]
  shortMonths := ["Jan", "Feb", "Mär", "Apr", "Mai", "Jun", "Jul", "Aug", "Sep", "Okt", "Nov", "Dez"]
  months := ["Januar", "Februar", "März", "April", "Mai", "Juni", "Juli", "August", "September",
    "Oktober", "November", "Dezember"]

/-- The names of the locale `de_CH`. -/
def Locale.deCH : Locale where
  dateFormat := "%d.%m.%Y"
  dateTimeFormat := "%a %d %b %Y %T %Z"
  timeFormat := "%T"
  halfDayFormat := ""
  decimalPoint := "."
  halves := ("", "")
  smallHalves := ("", "")
  shortDays := ["So", "Mo", "Di", "Mi", "Do", "Fr", "Sa"]
  days := ["Sonntag", "Montag", "Dienstag", "Mittwoch", "Donnerstag", "Freitag", "Samstag"]
  shortMonths := ["Jan", "Feb", "Mär", "Apr", "Mai", "Jun", "Jul", "Aug", "Sep", "Okt", "Nov", "Dez"]
  months := ["Januar", "Februar", "März", "April", "Mai", "Juni", "Juli", "August", "September",
    "Oktober", "November", "Dezember"]

/-- The names of the locale `fr_FR`. -/
def Locale.frFR : Locale where
  dateFormat := "%d/%m/%Y"
  dateTimeFormat := "%a %d %b %Y %T %Z"
  timeFormat := "%T"
  halfDayFormat := ""
  decimalPoint := ","
  halves := ("", "")
  smallHalves := ("", "")
  shortDays := ["dim.", "lun.", "mar.", "mer.", "jeu.", "ven.", "sam."]
  days := ["dimanche", "lundi", "mardi", "mercredi", "jeudi", "vendredi", "samedi"]
  shortMonths := ["janv.", "févr.", "mars", "avril", "mai", "juin", "juil.", "août", "sept.", "oct.",
    "nov.", "déc."]
  months := ["janvier", "février", "mars", "avril", "mai", "juin", "juillet", "août", "septembre",
    "octobre", "novembre", "décembre"]

/-- The names of the locale `it_IT`. -/
def Locale.itIT : Locale where
  dateFormat := "%d/%m/%Y"
  dateTimeFormat := "%a %-d %b %Y, %T"
  timeFormat := "%T"
  halfDayFormat := ""
  decimalPoint := ","
  halves := ("", "")
  smallHalves := ("", "")
  shortDays := ["dom", "lun", "mar", "mer", "gio", "ven", "sab"]
  days := ["domenica", "lunedì", "martedì", "mercoledì", "giovedì", "venerdì", "sabato"]
  shortMonths := ["gen", "feb", "mar", "apr", "mag", "giu", "lug", "ago", "set", "ott", "nov", "dic"]
  months := ["gennaio", "febbraio", "marzo", "aprile", "maggio", "giugno", "luglio", "agosto",
    "settembre", "ottobre", "novembre", "dicembre"]

/-- The names of the locale `sv_SE`. -/
def Locale.svSE : Locale where
  dateFormat := "%Y-%m-%d"
  dateTimeFormat := "%a %e %b %Y %H:%M:%S"
  timeFormat := "%H:%M:%S"
  halfDayFormat := ""
  decimalPoint := ","
  halves := ("", "")
  smallHalves := ("", "")
  shortDays := ["sön", "mån", "tis", "ons", "tor", "fre", "lör"]
  days := ["söndag", "måndag", "tisdag", "onsdag", "torsdag", "fredag", "lördag"]
  shortMonths := ["jan", "feb", "mar", "apr", "maj", "jun", "jul", "aug", "sep", "okt", "nov", "dec"]
  months := ["januari", "februari", "mars", "april", "maj", "juni", "juli", "augusti", "september",
    "oktober", "november", "december"]

/-- The names of the locale `ja_JP`. -/
def Locale.jaJP : Locale where
  dateFormat := "%Y年%m月%d日"
  dateTimeFormat := "%Y年%m月%d日 %H時%M分%S秒"
  timeFormat := "%H時%M分%S秒"
  halfDayFormat := "%p%I時%M分%S秒"
  decimalPoint := "."
  halves := ("午前", "午後")
  smallHalves := ("午前", "午後")
  shortDays := ["日", "月", "火", "水", "木", "金", "土"]
  days := ["日曜日", "月曜日", "火曜日", "水曜日", "木曜日", "金曜日", "土曜日"]
  shortMonths := [" 1月", " 2月", " 3月", " 4月", " 5月", " 6月", " 7月", " 8月", " 9月", "10月", "11月", "12月"]
  months := ["1月", "2月", "3月", "4月", "5月", "6月", "7月", "8月", "9月", "10月", "11月", "12月"]

/-- The names of the locale `ru_RU`. -/
def Locale.ruRU : Locale where
  dateFormat := "%d.%m.%Y"
  dateTimeFormat := "%a %d %b %Y %T"
  timeFormat := "%T"
  halfDayFormat := ""
  decimalPoint := ","
  halves := ("", "")
  smallHalves := ("", "")
  shortDays := ["Вс", "Пн", "Вт", "Ср", "Чт", "Пт", "Сб"]
  days := ["Воскресенье", "Понедельник", "Вторник", "Среда", "Четверг", "Пятница", "Суббота"]
  shortMonths := ["янв", "фев", "мар", "апр", "мая", "июн", "июл", "авг", "сен", "окт", "ноя", "дек"]
  months := ["января", "февраля", "марта", "апреля", "мая", "июня", "июля", "августа", "сентября",
    "октября", "ноября", "декабря"]

/-- The names of the locale `tr_TR`. -/
def Locale.trTR : Locale where
  dateFormat := "%d-%m-%Y"
  dateTimeFormat := "%a %d %b %Y %T %Z"
  timeFormat := "%T"
  halfDayFormat := "%I:%M:%S %p"
  decimalPoint := ","
  halves := ("ÖÖ", "ÖS")
  smallHalves := ("öö", "ös")
  shortDays := ["Paz", "Pzt", "Sal", "Çrş", "Prş", "Cum", "Cts"]
  days := ["Pazar", "Pazartesi", "Salı", "Çarşamba", "Perşembe", "Cuma", "Cumartesi"]
  shortMonths := ["Oca", "Şub", "Mar", "Nis", "May", "Haz", "Tem", "Ağu", "Eyl", "Eki", "Kas", "Ara"]
  months := ["Ocak", "Şubat", "Mart", "Nisan", "Mayıs", "Haziran", "Temmuz", "Ağustos", "Eylül",
    "Ekim", "Kasım", "Aralık"]

/-- The names of the locale `pl_PL`. -/
def Locale.plPL : Locale where
  dateFormat := "%d.%m.%Y"
  dateTimeFormat := "%a, %-d %b %Y, %T"
  timeFormat := "%T"
  halfDayFormat := ""
  decimalPoint := ","
  halves := ("", "")
  smallHalves := ("", "")
  shortDays := ["nie", "pon", "wto", "śro", "czw", "pią", "sob"]
  days := ["niedziela", "poniedziałek", "wtorek", "środa", "czwartek", "piątek", "sobota"]
  shortMonths := ["sty", "lut", "mar", "kwi", "maj", "cze", "lip", "sie", "wrz", "paź", "lis", "gru"]
  months := ["stycznia", "lutego", "marca", "kwietnia", "maja", "czerwca", "lipca", "sierpnia",
    "września", "października", "listopada", "grudnia"]

/-- The locales by name. -/
def Locale.all : List (Text × Locale) := [
  ("POSIX".toList, Locale.posix),
  ("en_US".toList, Locale.enUS),
  ("en_GB".toList, Locale.enGB),
  ("de_DE".toList, Locale.deDE),
  ("de_CH".toList, Locale.deCH),
  ("fr_FR".toList, Locale.frFR),
  ("it_IT".toList, Locale.itIT),
  ("sv_SE".toList, Locale.svSE),
  ("ja_JP".toList, Locale.jaJP),
  ("ru_RU".toList, Locale.ruRU),
  ("tr_TR".toList, Locale.trTR),
  ("pl_PL".toList, Locale.plPL)]

/-- The locale called `name`, which may name a character set behind `.` and a
    variant behind `@`. -/
def Locale.find? (name : Text) : Option Locale :=
  let base := name.takeWhile fun c => c != '.' && c != '@'
  let base := base.map fun c => if c = '-' then '_' else c
  if base = "C".toList then some Locale.posix else Locale.all.lookup base

end Shortcode.Calendar
